import RowMapper.Proofs.Session.FirstSave
import RowMapper.Proofs.Session.Loads

/-! # Relations that were loaded before

A relation is resolved once. What a load returned is returned by every later load, without
a statement and whatever the driver would answer by then, until something is assigned to
the record. Mostly this is because the related records are kept with the record, also if
there are none. The dependents of a new record are not kept; they are missing for as long
as the record has neither a key nor keys that were assigned to the relation.
-/

namespace RowMapper

open Run

variable {σ : Type}

/-- Many records could be related, and none is. -/
def Related.isNoneOfMany {Record : Type} : Related Record → Bool
  | .one _ => false
  | .many records => records.isEmpty

theorem Related.isNoneOfMany_iff {Record : Type} {found : Related Record} :
    found.isNoneOfMany = true ↔ found = .many [] := by
  cases found <;> simp [isNoneOfMany]

namespace Record

variable {r s : Record} {name : String} {relation : Relation} {found : Related Record}

/-- No row can depend on a record without a key, unless keys were assigned to be linked. -/
structure WithoutDependents (r : Record) (name : String) (relation : Relation) : Prop where
  kind : relation.kind ≠ .belongsTo
  new : r.key? = none
  pending : relation.kind.needsJunction = true → r.pending.get? name = none

/-- What a record tells of a relation without being looked up: what it keeps of it, or that it has
no dependents. -/
structure Resolved (r : Record) (name : String) (relation : Relation) (found : Related Record) :
    Prop where
  live : r.voided = false
  declared : r.schema.relation name = some relation
  known : r.related? name = some found ∨
    r.related? name = none ∧ r.WithoutDependents name relation ∧ found = .empty relation.kind

/-- Nothing was assigned to a record, and no links but those of a save were taken from it. -/
structure Unassigned (r s : Record) : Prop where
  schema : s.schema = r.schema
  voided : s.voided = r.voided
  relations : s.relations = r.relations
  pending : ∀ name, r.pending.get? name = none → s.pending.get? name = none

theorem chained_unassigned : Chained Unassigned where
  refl _ := ⟨rfl, rfl, rfl, fun _ h => h⟩
  trans h h' := ⟨h'.schema.trans h.schema, h'.voided.trans h.voided,
    h'.relations.trans h.relations, fun name hp => h'.pending name (h.pending name hp)⟩

/-- A record tells of a relation what it told before something was done with it that assigned
nothing and gave no key to a record without dependents. -/
theorem Resolved.of_unassigned (h : r.Resolved name relation found) (hs : Unassigned r s)
    (hkey : r.related? name = none → s.key? = none) : s.Resolved name relation found := by
  have hsame : s.related? name = r.related? name := by rw [related?, hs.relations, related?]
  refine ⟨hs.voided.trans h.live, by rw [hs.schema, h.declared], ?_⟩
  rw [hsame]
  rcases h.known with hkept | ⟨hunknown, hnone, hempty⟩
  · exact .inl hkept
  · exact .inr ⟨hunknown, ⟨hnone.kind, hkey hunknown, fun hj => hs.pending name (hnone.pending hj)⟩,
      hempty⟩

theorem Resolved.keep (h : r.Resolved name relation found) {other : String} (hne : other ≠ name)
    (others : Related Record) : (r.keep other others).Resolved name relation found := by
  have hsame : (r.keep other others).related? name = r.related? name :=
    Entries.get?_put_of_ne _ _ hne
  refine ⟨h.live, h.declared, ?_⟩
  rw [hsame]
  exact h.known.imp_right fun ⟨hunknown, hnone, hempty⟩ =>
    ⟨hunknown, ⟨hnone.kind, hnone.new, hnone.pending⟩, hempty⟩

theorem live_of_ensureLive (h : r.ensureLive = .ok ()) : r.voided = false := by
  cases hvoided : r.voided with
  | false => rfl
  | true => simp [ensureLive, hvoided] at h

end Record

namespace Action

variable {d : Driver σ} {r : Record} {name : String} {relation : Relation} {target : Schema}

/-- Resolving comes to nothing just where there can be no dependents, and then nothing was done. -/
theorem resolve_eq_none {s t : Session σ} :
    resolve d r name relation target s = .ok none t ↔
      r.WithoutDependents name relation ∧ t = s := by
  unfold resolve
  by_cases hkind : relation.kind = .belongsTo
  · rw [if_pos hkind]
    constructor
    · intro h
      obtain ⟨_, _, -, h⟩ := bind_eq_ok.1 h
      cases h
    · exact fun h => absurd hkind h.1.kind
  rw [if_neg hkind]
  cases hpending : (r.pending.get? name).filter fun _ => relation.kind.needsJunction with
  | some keys =>
    obtain ⟨hassigned, hjunction⟩ := Option.filter_eq_some_iff.1 hpending
    constructor
    · intro h
      obtain ⟨_, _, -, h⟩ := bind_eq_ok.1 h
      cases h
    · intro h
      rw [h.1.pending hjunction] at hassigned
      cases hassigned
  | none =>
    cases hkey : r.key? with
    | some key =>
      constructor
      · intro h
        obtain ⟨_, _, -, h⟩ := bind_eq_ok.1 h
        cases h
      · intro h
        rw [h.1.new] at hkey
        cases hkey
    | none =>
      dsimp only
      rw [pure_eq_ok]
      have hnone : r.WithoutDependents name relation := by
        refine ⟨hkind, hkey, fun hjunction => ?_⟩
        simpa [hjunction, Option.eq_none_iff_forall_ne_some] using hpending
      exact ⟨fun h => ⟨hnone, h.2.symm⟩, fun h => ⟨rfl, h.2.symm⟩⟩

end Action

namespace RecordAction

variable {d : Driver σ} {name : String} {relation : Relation} {found : Related Record}
  {f g : Focus σ}

/-! ## Loading -/

/-- What a record tells of a relation is returned without being asked for. -/
theorem load_of_resolved (h : f.record.Resolved name relation found) :
    ∃ schemas, load d name f = .ok found ⟨{ f.session with schemas }, f.record⟩ := by
  rcases h.known with hkept | ⟨hunknown, hnone, rfl⟩
  · exact ⟨f.session.schemas, load_of_related? h.live h.declared hkept⟩
  · let schemas := (f.session.schemas.resolve relation.target.key).2
    obtain ⟨target, htarget⟩ : ∃ target, Action.targetSchema relation f.session =
        .ok target { f.session with schemas } := ⟨_, rfl⟩
    have hresolve : Action.resolve d f.record name relation target { f.session with schemas } =
        .ok none { f.session with schemas } := Action.resolve_eq_none.2 ⟨hnone, rfl⟩
    refine ⟨schemas, ?_⟩
    rw [load, record_bind, bind_of_ok (check_ensureLive h.live)]
    simp only [h.declared, hunknown]
    rw [bind_of_ok (inSession_eq_ok.2 ⟨_, htarget, rfl⟩),
      bind_of_ok (inSession_eq_ok.2 ⟨_, hresolve, rfl⟩)]
    rfl

/-- What a load returned is what the record tells of the relation from then on. -/
theorem resolved_of_load (h : load d name f = .ok found g) :
    ∃ relation, g.record.Resolved name relation found := by
  rw [load, record_bind] at h
  obtain ⟨_, f', hcheck, h⟩ := bind_eq_ok.1 h
  obtain ⟨hensure, hsame⟩ := check_eq_ok.1 hcheck
  rw [hsame] at h
  have hlive := Record.live_of_ensureLive hensure
  cases hdeclared : f.record.schema.relation name with
  | none =>
    rw [hdeclared] at h
    cases h
  | some relation =>
    refine ⟨relation, ?_⟩
    simp only [hdeclared] at h
    cases hrelated : f.record.related? name with
    | some kept =>
      rw [hrelated] at h
      obtain ⟨rfl, rfl⟩ := pure_eq_ok.1 h
      exact ⟨hlive, hdeclared, .inl hrelated⟩
    | none =>
      rw [hrelated] at h
      obtain ⟨target, _, htarget, h⟩ := bind_eq_ok.1 h
      obtain ⟨s, -, rfl⟩ := inSession_eq_ok.1 htarget
      obtain ⟨outcome, _, hresolved, h⟩ := bind_eq_ok.1 h
      obtain ⟨t, hresolve, rfl⟩ := inSession_eq_ok.1 hresolved
      cases outcome with
      | some resolved =>
        cases h
        exact ⟨hlive, hdeclared, .inl (Entries.get?_put_self _ _ _)⟩
      | none =>
        cases h
        exact ⟨hlive, hdeclared, .inr ⟨hrelated, (Action.resolve_eq_none.1 hresolve).1, rfl⟩⟩

/-- The step: a record tells of a relation what it told before any relation was loaded. -/
theorem resolved_load (h : f.record.Resolved name relation found) (d : Driver σ)
    (other : String) : (final (load d other f)).record.Resolved name relation found := by
  by_cases hother : other = name
  · subst hother
    obtain ⟨schemas, hload⟩ := load_of_resolved (d := d) h
    rw [hload]
    exact h
  · rcases load_cases d other f with ⟨hsame, -⟩ | ⟨_, _, _, others, s, -, -, -, -, hload⟩
    · rwa [hsame]
    · rw [hload]
      exact h.keep hother others

/-! ## Saving -/

open Record

theorem writing_unassigned (d : Driver σ) : Writing d (Unwatched Unassigned) := by
  refine writing_unwatched chained_unassigned d fun f hf r => ?_
  cases hf with
  | stamp now user inserting =>
    obtain ⟨_, _, _, h⟩ := changesRow_stampAll now user inserting r
    rw [h]
    exact ⟨rfl, rfl, rfl, fun _ hp => hp⟩
  | errors => exact ⟨rfl, rfl, rfl, fun _ hp => hp⟩
  | key => exact ⟨rfl, rfl, rfl, fun _ hp => hp⟩

theorem unassigned_saveLinks (d : Driver σ) : Keeps (Unwatched Unassigned) (saveLinks d) := by
  have hS := Action.remembering_setup d
  refine keeps_saveLinks (chained_unwatched chained_unassigned) (fun schema => ?_)
    (fun g hnone => ⟨hnone, rfl, rfl, rfl, fun _ _ => rfl⟩) fun c r key links => ?_
  · exact unwatched_inSession chained_unassigned (hS.connectionOf schema)
  · exact unwatched_inSession chained_unassigned (hS.linkEach c r key links)

theorem unassigned_save (d : Driver σ) : Keeps (Unwatched Unassigned) (save d) := by
  have hR := chained_unwatched (σ := σ) chained_unassigned
  rw [save_eq]
  refine hR.seq (writing_unassigned d).saveRow fun written => ?_
  split
  · exact hR.result _
  refine hR.seq (unassigned_saveLinks d) fun _ => ?_
  refine hR.seq ((writing_unassigned d).after .saved) fun _ => ?_
  refine hR.seq (fun g hnone => ⟨hnone, rfl, rfl, rfl, fun _ hp => hp⟩) fun _ => ?_
  split
  · refine hR.seq (keeps_record hR) fun r => ?_
    exact hR.seq (unwatched_inSession chained_unassigned
      ((Action.remembering_setup d).remember r)) fun _ => hR.result _
  · exact hR.result _

/-! ## Loading again -/

/-- What a record can have become without an assignment: relations were loaded, and it was validated
and saved without observers, each in some session with some driver. A save that gives it a key is
left out, unless the record keeps what was found of the relation. Nothing is kept of a relation to
rows that would hold the key while there is none: to load it then is to skip it, not to resolve it.
Once the record has a key, those rows are looked up, and that is the first time. -/
inductive Meanwhile (name : String) (start : Record) : Record → Prop
  | start : Meanwhile name start start
  | load {τ : Type} {r : Record} (d : Driver τ) (s : Session τ) (other : String)
      (h : Meanwhile name start r) : Meanwhile name start (final (load d other ⟨s, r⟩)).record
  | validate {τ : Type} {r : Record} (s : Session τ) (hnone : Unobserved ⟨s, r⟩)
      (h : Meanwhile name start r) : Meanwhile name start (final (validate ⟨s, r⟩)).record
  | save {τ : Type} {r : Record} (d : Driver τ) (s : Session τ) (hnone : Unobserved ⟨s, r⟩)
      (hkey : r.related? name = none → (final (save d ⟨s, r⟩)).record.key? = none)
      (h : Meanwhile name start r) : Meanwhile name start (final (save d ⟨s, r⟩)).record

/-- The run: a record tells of a relation what it told before. -/
theorem Meanwhile.resolved {start r : Record} (h : Meanwhile name start r)
    (hstart : start.Resolved name relation found) : r.Resolved name relation found := by
  induction h with
  | start => exact hstart
  | load d s other _ ih => exact resolved_load (f := ⟨s, _⟩) ih d other
  | validate s hnone _ ih =>
    rw [validate_of_unobserved hnone]
    refine ih.of_unassigned ⟨rfl, rfl, rfl, fun _ hp => hp⟩ fun hunknown => ?_
    rcases ih.known with hkept | ⟨-, hnew, -⟩
    · rw [hunknown] at hkept
      cases hkept
    · exact hnew.new
  | save d s hnone hkey _ ih => exact ih.of_unassigned ((unassigned_save d _ hnone).2) hkey

/-- A relation that was loaded is not queried again: with nothing assigned since, another load
returns the same, with any driver and in any session, of which nothing changes but that the related
model's schema may be put together; nothing is sent. The relations of a new record to rows that
would hold its key are like that from the start, and empty. -/
theorem load_again (d : Driver σ) (name : String) (f : Focus σ) :
    (∀ found g, load d name f = .ok found g → ∀ r, Meanwhile name g.record r →
      ∀ (τ : Type) (d' : Driver τ) (s : Session τ), ∃ schemas,
        load d' name ⟨s, r⟩ = .ok found ⟨{ s with schemas }, r⟩) ∧
    ∀ relation, f.record.voided = false → f.record.schema.relation name = some relation →
      relation.kind ≠ .belongsTo → f.record.key? = none → f.record.related? name = none →
      (relation.kind = .manyToMany → f.record.pending.get? name = none) → ∃ schemas,
        load d name f = .ok (.empty relation.kind) ⟨{ f.session with schemas }, f.record⟩ := by
  constructor
  · intro found g h r hlater τ d' s
    obtain ⟨relation, hresolved⟩ := resolved_of_load h
    exact load_of_resolved (f := ⟨s, r⟩) (hlater.resolved hresolved)
  · intro relation hlive hdeclared hkind hnew hunknown hpending
    have hnone : f.record.WithoutDependents name relation :=
      ⟨hkind, hnew, fun hj => hpending (by simpa [RelationKind.needsJunction] using hj)⟩
    exact load_of_resolved ⟨hlive, hdeclared, .inr ⟨hunknown, hnone, rfl⟩⟩

def bagSample : Schema := (Schema.new "Bag" "bags").withRelation "tags"
  { kind := .manyToMany, target := (Schema.new "Tag" "tags").ref 1, junctionTable := some "tied" }

def bagSession (scripts : List Scripted.Script) : Session Scripted.Servers :=
  Scripted.session [bagSample, .new "Tag" "tags"] { scripts }

/-- A stored bag in a session without the junction table. -/
def storedBag : Focus Scripted.Servers where
  session := bagSession [⟨"tied", Scripted.missingTable .postgres, false⟩]
  record := .ofRow bagSample [("id", .int64 5)]

/-- The tags of a stored bag are asked for once, and those of a new one not at all, even where every
question has an answer. -/
theorem storedBag_again :
    let stocked := bagSession [⟨"SELECT", .rows [[("id", .int64 7)]], false⟩]
    ∃ g, load Scripted.driver "tags" storedBag = .ok (.many []) g ∧ g.session.sent.length = 1 ∧
    (∃ schemas, load Scripted.driver "tags" ⟨stocked, g.record⟩ =
      .ok (.many []) ⟨{ stocked with schemas }, g.record⟩) ∧
    ∃ schemas, load Scripted.driver "tags" ⟨stocked, .new bagSample⟩ =
      .ok (.many []) ⟨{ stocked with schemas }, .new bagSample⟩ := by
  intro stocked
  obtain ⟨hvalue, hsent⟩ :
      (value? (load Scripted.driver "tags" storedBag)).any Related.isNoneOfMany = true ∧
      (final (load Scripted.driver "tags" storedBag)).session.sent.length = 1 := by
    decide +kernel
  obtain ⟨found, hfound, hnone⟩ := (Option.any_eq_true _ _).1 hvalue
  obtain rfl := Related.isNoneOfMany_iff.1 hnone
  have hload := eq_ok_of_value? hfound
  refine ⟨_, hload, hsent, ?_, ?_⟩
  · exact (load_again Scripted.driver "tags" storedBag).1 _ _ hload _ .start _
      Scripted.driver stocked
  · exact (load_again Scripted.driver "tags" ⟨stocked, .new bagSample⟩).2 _ rfl rfl nofun rfl rfl
      fun _ => rfl

end RecordAction

end RowMapper
