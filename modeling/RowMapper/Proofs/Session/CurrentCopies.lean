import RowMapper.Proofs.Session.CopiedRows
import RowMapper.Proofs.Session.Rosters

/-! # Copies of current rows

Records of a model are looked up by integers, copied, assigned to, saved and deleted, with or
without success, and nobody is told of it. As long as no SQL text that the database takes for
an integer without being its text becomes their key, each copy in the identity map is the
record of the row that stands under its key, and a look-up by any number but zero finds the
record of that row.
-/

namespace RowMapper

open Run

variable {σ : Type}

/-- A session with the records of a model that were found in it and are still worked on. -/
structure Pool (σ : Type) where
  session : Session σ
  held : List Record := []

namespace Pool

/-- One use of the records of a model. Records that are held are named by their place. -/
inductive Operation where
  | find (key : Value)
  /-- Hold a copy of a record that is held. -/
  | copy (place : Nat)
  | assign (place : Nat) (name : String) (v : FieldValue Record)
  | save (place : Nat)
  | delete (place : Nat)

def work {α : Type} (P : Pool σ) (place : Nat) (action : RecordAction σ α) : Pool σ :=
  match P.held[place]? with
  | none => P
  | some r =>
    let f := final (action ⟨P.session, r⟩)
    ⟨f.session, P.held.set place f.record⟩

namespace Operation

def after (d : Driver σ) (schema : Schema) : Operation → Pool σ → Pool σ
  | find key, P =>
    let result := Action.findRecord d schema key P.session
    ⟨final result, P.held ++ (value? result).join.toList⟩
  | copy place, P => { P with held := P.held ++ P.held[place]?.toList }
  | assign place name v, P => P.work place (.edit (Edit.assign name v))
  | save place, P => P.work place (RecordAction.save d)
  | delete place, P => P.work place (RecordAction.delete d)

/-- Look-ups are by integers, and a record that is saved has a key, before and after the save has
stamped it. -/
def Admissible (P : Pool σ) : Operation → Prop
  | find key => ∃ n, key.integer? = some n
  | save place => ∀ r, P.held[place]? = some r → r.voided = false →
    r.isNew = false ∧ (RecordAction.written ⟨P.session, r⟩).isNew = false
  | _ => True

instance (P : Pool σ) (op : Operation) : Decidable (op.Admissible P) :=
  match op with
  | find _ => decidable_of_iff _ Option.isSome_iff_exists
  | save place => decidable_of_iff (∀ r ∈ P.held[place]?.toList, r.voided = false →
      r.isNew = false ∧ (RecordAction.written ⟨P.session, r⟩).isNew = false)
      (forall_congr' fun _ => by rw [Option.mem_toList])
  | copy _ | assign _ _ _ | delete _ => isTrue trivial

/-- SQL text that becomes a key spells the integer that the database takes it for. -/
def Spelled (T : KeyedTable σ) (schema : Schema) : Operation → Prop
  | assign _ name v => ∀ sql, v = .raw sql → name = schema.primaryKey →
    (Value.text sql).Spells T.keyOf
  | _ => True

end Operation

variable {T : KeyedTable σ} {d : Driver σ} {schema : Schema} {start : String} {s : Session σ}
  {P : Pool σ}

/-- What holds of a pool all through a run: the session is still set up as at the start, the copies
are current, and the keys of the records are spelled. -/
structure Sound (T : KeyedTable σ) (schema : Schema) (s : Session σ) (P : Pool σ) : Prop where
  setup : s.SameSetup P.session
  current : T.Current schema P.session
  spelled : ∀ r ∈ P.held, r.Spelled T.keyOf schema

theorem Sound.work {α : Type} (h : Sound T schema s P) {action : RecordAction σ α} (place : Nat)
    (hsetup : Keeps (Focus.Across Session.SameSetup) action)
    (haction : ∀ r ∈ P.held, P.held[place]? = some r →
      T.Advances schema ⟨P.session, r⟩ (final (action ⟨P.session, r⟩))) :
    Sound T schema s (P.work place action) := by
  unfold Pool.work
  cases hr : P.held[place]? with
  | none => exact h
  | some r =>
    have hmem := List.mem_of_getElem? hr
    have hstep := haction r hmem hr
    have hsame : P.session.SameSetup _ := hsetup ⟨P.session, r⟩
    refine ⟨h.setup.trans hsame, h.current.follows hstep.follows hsame.filter, fun t ht => ?_⟩
    rcases List.mem_or_eq_of_mem_set ht with ht | rfl
    · exact h.spelled t ht
    · exact hstep.spelled (h.spelled r hmem)

/-- The step: every admissible operation keeps the copies current. -/
theorem Sound.after (hT : T.Faithful d schema start) (hkeyed : schema.IntegerKeyed)
    (hstart : DatabaseConfig.tablePrefix s.config schema.connection = .ok start)
    (hobservers : s.observers.ofModel schema.name = []) {op : Operation}
    (h : Sound T schema s P) (hop : op.Admissible P) (hspelled : op.Spelled T schema) :
    Sound T schema s (op.after d schema P) := by
  have hsetup := Action.remembering_setup d
  have hstart' : DatabaseConfig.tablePrefix P.session.config schema.connection = .ok start :=
    h.setup.config ▸ hstart
  have hmanaged (r : Record) (hr : r ∈ P.held) : T.Managed schema start ⟨P.session, r⟩ :=
    ⟨hstart', by rw [h.setup.observers]; exact hobservers, h.spelled r hr⟩
  cases op with
  | find key =>
    obtain ⟨n, hn⟩ := hop
    have hsame := hsetup.findRecord schema key P.session
    refine ⟨h.setup.trans hsame, hT.current_findRecord hstart' h.current hn, fun r hr => ?_⟩
    rcases List.mem_append.1 hr with hr | hr
    · exact h.spelled r hr
    cases hrun : Action.findRecord d schema key P.session with
    | error e t =>
      rw [hrun] at hr
      cases hr
    | ok found t =>
      have hfound := hT.found_eq hstart' h.current hn hrun
      rw [hrun, Option.mem_toList] at hr
      change found = some r at hr
      rw [hr] at hfound
      split at hfound
      · cases hfound
      obtain ⟨row, hrow, rfl⟩ := Option.map_eq_some_iff.1 hfound.symm
      obtain ⟨v, hdata, hv⟩ := hT.data_hydrate hrow
      exact .ofRow hT.integers hdata hv
  | copy place =>
    refine ⟨h.setup, h.current, fun r hr => h.spelled r ?_⟩
    rcases List.mem_append.1 hr with hr | hr
    · exact hr
    · exact List.mem_of_getElem? (Option.mem_toList.1 hr)
  | assign place name v =>
    have hedit (f : Focus σ) : final (RecordAction.edit (Edit.assign name v) f) =
        { f with record := final (Edit.assign name v f.record) } := by
      unfold RecordAction.edit
      cases Edit.assign name v f.record <;> rfl
    refine h.work place (fun f => ?_) fun r hr _ => ?_
    · rw [hedit]
      exact hsetup.refl f.session
    · rw [hedit]
      exact ⟨KeyedTable.follows_of_same rfl rfl, fun hr =>
        hr.effect hkeyed hT.integers hspelled (Edit.effect_assign name v r)⟩
  | save place =>
    exact h.work place hsetup.save fun r hr hplace =>
      KeyedTable.advances_save hT hkeyed (hmanaged r hr) (hop r hplace)
  | delete place =>
    exact h.work place hsetup.delete fun r hr _ =>
      KeyedTable.advances_delete hT (hmanaged r hr)

/-- The run: admissible operations keep the copies current. -/
theorem Sound.states (hT : T.Faithful d schema start) (hkeyed : schema.IntegerKeyed)
    (hstart : DatabaseConfig.tablePrefix s.config schema.connection = .ok start)
    (hobservers : s.observers.ofModel schema.name = []) {ops : List Operation}
    (h : Sound T schema s P)
    (hops : ∀ stage ∈ visited (Operation.after d schema) ops P, stage.2.Admissible stage.1)
    (hspelled : ∀ op ∈ ops, op.Spelled T schema) :
    ∀ Q ∈ states (Operation.after d schema) ops P, Sound T schema s Q :=
  forall_mem_states h fun Q op hmem hQ =>
    hQ.after hT hkeyed hstart hobservers (hops (Q, op) hmem) (hspelled op (mem_of_visited hmem))

/-- A session keeps no copy of a record of a model yet, and nobody is told of such records. In every
state of a run of admissible operations, with or without success, the copies of the model's records
are the records of the rows that stand under their keys now. There, a look-up by an integer that
succeeds finds the record of the row that stands under the integer, or none if there is no such row
or the integer is zero, and it changes no row. It fails only without a copy, where the query of the
key cannot be made or is not answered. -/
theorem copies_current (hT : T.Faithful d schema start) (hkeyed : schema.IntegerKeyed)
    (hstart : DatabaseConfig.tablePrefix s.config schema.connection = .ok start)
    (hobservers : s.observers.ofModel schema.name = [])
    (hfresh : ∀ entry ∈ s.identities.entries, entry.1.model ≠ schema.name) {ops : List Operation}
    (hops : ∀ stage ∈ visited (Operation.after d schema) ops ⟨s, []⟩, stage.2.Admissible stage.1)
    (hspelled : ∀ op ∈ ops, op.Spelled T schema) :
    ∀ Q ∈ states (Operation.after d schema) ops ⟨s, []⟩,
      (∀ i copy, (i, copy) ∈ Q.session.identities.entries → i.model = schema.name → ∃ n row,
        i = ⟨schema.name, toString n⟩ ∧ T.row? Q.session.servers n = some row ∧
          copy = Q.session.hydrate schema row) ∧
      ∀ key n, key.integer? = some n →
        (∀ found t, Action.findRecord d schema key Q.session = .ok found t →
          T.row? t.servers = T.row? Q.session.servers ∧
            found = if n = 0 then none
              else (T.row? Q.session.servers n).map (Q.session.hydrate schema)) ∧
        ∀ e t, Action.findRecord d schema key Q.session = .error e t →
          n ≠ 0 ∧ Q.session.identities.find? (.of schema.name key) = none ∧
          (Action.queryOf schema (Q.session.asked (.of schema.name key)) = .error e t ∨
            ∃ q s₁, Action.queryOf schema (Q.session.asked (.of schema.name key)) = .ok q s₁ ∧
              Action.rows d ((q.filter (.key schema.primaryKey key)).atMost 1) s₁ =
                .error e t) := by
  have hfirst : Sound T schema s ⟨s, []⟩ :=
    ⟨⟨rfl, rfl, rfl, rfl, rfl⟩, fun i copy hentry hmodel => absurd hmodel (hfresh _ hentry),
      fun r hr => nomatch hr⟩
  intro Q hQ
  have hsound := hfirst.states hT hkeyed hstart hobservers hops hspelled Q hQ
  have hstart' : DatabaseConfig.tablePrefix Q.session.config schema.connection = .ok start :=
    hsound.setup.config ▸ hstart
  refine ⟨hsound.current, fun key n hkey => ⟨fun found t hfound => ⟨?_, ?_⟩, fun e t hfails => ?_⟩⟩
  · have hrows := hT.rows_findRecord key Q.session
    rwa [hfound] at hrows
  · exact hT.found_eq hstart' hsound.current hkey hfound
  · obtain ⟨hempty, hnone, hquery⟩ := Action.findRecord_fails hfails
    refine ⟨fun hn => ?_, hnone, hquery⟩
    rw [(Value.isEmpty_of_integer? hkey).2 hn] at hempty
    cases hempty

/-! ## Runs of a roster -/

open Session.Operation (playerModel)

def rosterPool (n : Int64) (name : String) : Pool Roster := ⟨Roster.session [(n, name)], []⟩

theorem playerModel_integerKeyed : playerModel.IntegerKeyed where
  column := by decide +kernel
  integer := ⟨_, rfl, rfl⟩

/-- A player is found and the record copied, and the copy is saved under another name. -/
def renamed : List Operation :=
  [.find (.int64 5), .copy 0, .assign 1 "name" (.scalar (.text "Bea")), .save 1]

theorem renamed_found :
    ∃ Q ∈ states (Operation.after Roster.driver playerModel) renamed (rosterPool 5 "Ann"),
      Q.session.servers = [(5, "Bea")] ∧ ∃ t,
        Action.findRecord Roster.driver playerModel (.int64 5) Q.session =
          .ok ((Roster.row? Q.session.servers 5).map (Q.session.hydrate playerModel)) t := by
  have hadmissible : ∀ stage ∈ visited (Operation.after Roster.driver playerModel) renamed
      (rosterPool 5 "Ann"), stage.2.Admissible stage.1 := by decide +kernel
  have hspelled : ∀ op ∈ renamed, op.Spelled Roster.table playerModel := by
    intro op hop
    cases op with
    | assign place name v =>
      obtain ⟨-, -, rfl⟩ : place = 1 ∧ name = "name" ∧ v = .scalar (.text "Bea") := by
        simpa [renamed] using hop
      exact fun sql h => nomatch h
    | _ => trivial
  have hcurrent := copies_current Roster.faithful playerModel_integerKeyed rfl rfl
    (s := Roster.session [(5, "Ann")]) (fun entry h => nomatch h) hadmissible hspelled
  have hanswered : ∃ Q ∈ states (Operation.after Roster.driver playerModel) renamed
      (rosterPool 5 "Ann"), Q.session.servers = [(5, "Bea")] ∧
        (value? (Action.findRecord Roster.driver playerModel (.int64 5) Q.session)).isSome =
          true := by decide +kernel
  obtain ⟨Q, hQ, hservers, hrun⟩ := hanswered
  obtain ⟨found, hvalue⟩ := Option.isSome_iff_exists.1 hrun
  have hfound := eq_ok_of_value? hvalue
  obtain ⟨-, hrow⟩ := ((hcurrent Q hQ).2 (.int64 5) 5 rfl).1 found _ hfound
  rw [hrow] at hfound
  exact ⟨Q, hQ, hservers, _, hfound⟩

/-- A player's key becomes SQL text for 6; the player is found by it, and renamed in the record that
has the text. -/
def respelled : List Operation :=
  [.find (.int64 5), .assign 0 "id" (.raw "06"), .save 0, .find (.int64 6),
    .assign 0 "name" (.scalar (.text "Bea")), .save 0]

def nameOf (r : Record) : Option String := (r.data.get? "name").bind Value.toText?

/-- The row of the key 0 is not found. At the end of a run whose operations are all admissible, the
copy of the key 6 has a name that its row has no more. -/
theorem respelled_outdated :
    Roster.table.Faithful Roster.driver playerModel "" ∧ playerModel.IntegerKeyed ∧
    (Roster.row? (rosterPool 0 "Zoe").session.servers 0).isSome = true ∧
    Action.findRecord Roster.driver playerModel (.int64 0) (rosterPool 0 "Zoe").session =
      .ok none (rosterPool 0 "Zoe").session ∧
    (∀ stage ∈ visited (Operation.after Roster.driver playerModel) respelled (rosterPool 5 "Ann"),
      stage.2.Admissible stage.1) ∧
    ∃ Q ∈ states (Operation.after Roster.driver playerModel) respelled (rosterPool 5 "Ann"),
      (Q.session.identities.find? (.of playerModel.name (.int64 6))).map nameOf =
        some (some "Ann") ∧
      (Roster.row? Q.session.servers 6).map
        (fun row => nameOf (Q.session.hydrate playerModel row)) = some (some "Bea") := by
  exact ⟨Roster.faithful, playerModel_integerKeyed, by decide +kernel, rfl, by decide +kernel⟩

end Pool

end RowMapper
