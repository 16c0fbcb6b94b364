import RowMapper.Proofs.Session.Deletion
import RowMapper.Proofs.Session.Refusals

/-! # Records whose row was deleted

A deletion that voids its record leaves it with nothing: no values, no changes, no related
records and no assigned links. Whatever is asked of the record afterwards, in any session,
nothing comes back into it and nothing is sent for it. All that can happen is that
observers are told, whose assignments fail, and that a validation notes what is missing.
-/

namespace RowMapper

open Run

variable {σ α : Type}

namespace Record

structure Dead (r : Record) : Prop where
  voided : r.voided = true
  data : r.data = []
  extra : r.extra = []
  initial : r.initial = []
  relations : r.relations = []
  pending : r.pending = []

theorem dead_void (r : Record) : r.void.Dead := ⟨rfl, rfl, rfl, rfl, rfl, rfl⟩

variable {r s : Record}

theorem ensureLive_of_voided (h : r.voided = true) : r.ensureLive = .error (.voided r.model) := by
  simp [ensureLive, h]

theorem fieldValue_of_voided (h : r.voided = true) (name : String) :
    r.fieldValue name = .error (.voided r.model) := by
  rw [fieldValue, ensureLive_of_voided h]
  rfl

theorem acrossWrites_voided : AcrossWrites fun r s => s.voided = r.voided where
  refl _ := rfl
  trans h h' := h'.trans h
  remember r name before := by
    unfold remember
    split <;> rfl
  putData _ _ _ _ := rfl
  putExtra _ _ _ _ := rfl
  relate _ _ := rfl
  link _ _ _ := rfl

end Record

namespace Edit

variable {r s : Record}

theorem assign_of_voided (h : r.voided = true) (name : String) (v : FieldValue Record) :
    assign name v r = .error (.voided r.model) r := by
  have hcheck : check r.ensureLive r = .error (.voided r.model) r := by
    rw [Record.ensureLive_of_voided h]
    rfl
  exact bind_of_error hcheck _

theorem Assigned.eq_of_voided (h : Assigned r s) (hr : r.voided = true) : s = r := by
  induction h with
  | start => rfl
  | assign _ name v ih =>
    rw [ih, assign_of_voided hr]
    rfl

end Edit

namespace RecordAction

/-! ## The deletion -/

theorem record_final_inSession (x : Action σ α) (f : Focus σ) :
    (final (inSession x f)).record = f.record := by
  unfold inSession
  cases x f.session <;> rfl

/-- Nothing changes the record before the statement of its deletion. -/
theorem record_prepareDeletion (d : Driver σ) (schema : Schema) (f : Focus σ) :
    (final (prepareDeletion d schema f)).record = f.record := by
  have hR : Chained fun f g : Focus σ => g.record = f.record :=
    ⟨fun _ => rfl, fun h h' => h'.trans h⟩
  refine hR.seq record_before_deleting (fun allowed => ?_) f
  split
  · exact hR.result _
  · refine hR.seq (record_final_inSession _) fun c => ?_
    exact hR.seq (record_final_inSession _) fun table => hR.result _

/-- A deletion leaves the record as it is, or voids it at its end. -/
theorem record_delete (d : Driver σ) (f : Focus σ) :
    (final (delete d f)).record = f.record ∨ (final (delete d f)).record.Dead := by
  have hprepared := record_prepareDeletion d f.record.schema f
  rw [delete_eq, record_bind]
  cases hlive : f.record.ensureLive with
  | error e => exact .inl rfl
  | ok _ =>
    rw [bind_of_ok (check_eq_ok.2 ⟨rfl, rfl⟩)]
    cases hkey : f.record.key? with
    | none => exact .inl rfl
    | some key =>
      dsimp only
      cases hprepare : prepareDeletion d f.record.schema f with
      | error e g =>
        rw [hprepare] at hprepared
        rw [bind_of_error hprepare]
        exact .inl hprepared
      | ok target g =>
        rw [hprepare] at hprepared
        rw [bind_of_ok hprepare]
        cases target with
        | none => exact .inl hprepared
        | some target =>
          obtain ⟨c, table⟩ := target
          have hsame := record_final_inSession
            (Action.delete d c table [.key f.record.schema.primaryKey key]) g
          dsimp only
          cases hdelete : inSession
              (Action.delete d c table [.key f.record.schema.primaryKey key]) g with
          | error e g' =>
            rw [hdelete] at hsame
            rw [bind_of_error hdelete]
            exact .inl (hsame.trans hprepared)
          | ok deleted g' =>
            obtain ⟨notices, hfinish⟩ := finishDeletion_eq (.of f.record.model key) deleted g'
            rw [bind_of_ok hdelete, hfinish]
            exact .inr (Record.dead_void _)

theorem dead_of_delete {d : Driver σ} {f : Focus σ} (hlive : f.record.voided = false)
    (hvoided : (final (delete d f)).record.voided = true) :
    (final (delete d f)).record.Dead := by
  rcases record_delete d f with h | h
  · rw [h, hlive] at hvoided
    cases hvoided
  · exact h

/-! ## What is asked of a record -/

inductive Demand where
  | read (name : String)
  | assign (name : String) (v : FieldValue Record)
  | assignAll (values : List (String × FieldValue Record))
  | save
  | delete
  | fill (values : List (String × FieldValue Record))
  | validate
  | load (name : String)

def Demand.run (d : Driver σ) : Demand → RecordAction σ Unit
  | .read name => do let _ ← check ((← record).fieldValue name)
  | .assign name v => edit (Edit.assign name v)
  | .assignAll values => edit (Edit.assignAll values)
  | .save => do let _ ← RecordAction.save d
  | .delete => do let _ ← RecordAction.delete d
  | .fill values => do let _ ← RecordAction.fill values
  | .validate => do let _ ← RecordAction.validate
  | .load name => do let _ ← RecordAction.load d name

/-- What a record can have become after demands in a row, each in some session with some driver
where the observers of the record only assign. -/
inductive Outcomes (start : Record) : Record → Prop
  | start : Outcomes start start
  | step {τ : Type} {r : Record} (d : Driver τ) (s : Session τ) (demand : Demand)
      (h : Outcomes start r) (hassigns : ∀ o ∈ s.observers.ofModel r.model, o.AssignsOnly) :
      Outcomes start (final (demand.run d ⟨s, r⟩)).record

section Refused

variable {f : Focus σ} (h : f.record.voided = true)
include h

theorem check_of_voided :
    (check f.record.ensureLive : RecordAction σ Unit) f = .error (.voided f.record.model) f := by
  rw [Record.ensureLive_of_voided h]
  rfl

theorem save_of_voided (d : Driver σ) : save d f = .error (.voided f.record.model) f := by
  rw [save, record_bind]
  exact bind_of_error (check_of_voided h) _

theorem delete_of_voided (d : Driver σ) : delete d f = .error (.voided f.record.model) f := by
  rw [delete, record_bind]
  exact bind_of_error (check_of_voided h) _

theorem load_of_voided (d : Driver σ) (name : String) :
    load d name f = .error (.voided f.record.model) f := by
  rw [load, record_bind]
  exact bind_of_error (check_of_voided h) _

end Refused

/-! ## Nothing comes of it -/

/-- Nothing came of work on a voided record but that observers were told and errors noted, if the
observers only assign. -/
def Idles (f g : Focus σ) : Prop :=
  (∀ o ∈ f.session.observers.ofModel f.record.model, o.AssignsOnly) → f.record.voided = true →
    (∃ notices, g.session = { f.session with notices }) ∧
      ∃ errors, g.record = { f.record with errors }

variable {f g : Focus σ}

theorem idles_of_same (hsession : ∃ notices, g.session = { f.session with notices })
    (hrecord : g.record = f.record) : Idles f g := by
  have hsame : ({ f.record with errors := f.record.errors } : Record) = f.record := by
    cases f.record
    rfl
  exact fun _ _ => ⟨hsession, f.record.errors, hrecord.trans hsame.symm⟩

theorem chained_idles : Chained (Idles (σ := σ)) where
  refl f := idles_of_same ⟨f.session.notices, rfl⟩ rfl
  trans {f g k} hfg hgk hassigns hvoided := by
    obtain ⟨⟨_, hsession⟩, _, hrecord⟩ := hfg hassigns hvoided
    have hsame : g.session.observers.ofModel g.record.model =
        f.session.observers.ofModel f.record.model := by
      rw [hsession, hrecord]
      rfl
    obtain ⟨⟨notices, hsession'⟩, errors, hrecord'⟩ :=
      hgk (hsame ▸ hassigns) (by rw [hrecord, hvoided])
    exact ⟨⟨notices, by rw [hsession', hsession]⟩, errors, by rw [hrecord', hrecord]⟩

theorem idles_of_refused {x : RecordAction σ α}
    (hx : ∀ f : Focus σ, f.record.voided = true → x f = .error (.voided f.record.model) f) :
    Keeps Idles x := by
  intro f hassigns hvoided
  rw [hx f hvoided]
  exact chained_idles.refl f hassigns hvoided

theorem idles_before (e : Event) : Keeps Idles (before e : RecordAction σ Bool) := by
  intro f hassigns hvoided
  obtain ⟨hsession, hassigned⟩ := assigned_before e f hassigns
  exact idles_of_same hsession (hassigned.eq_of_voided hvoided) hassigns hvoided

theorem idles_after (e : Event) : Keeps Idles (after e : RecordAction σ Unit) := by
  intro f
  obtain ⟨notices, hafter⟩ := after_eq_ok e f
  rw [hafter]
  exact idles_of_same ⟨notices, rfl⟩ rfl

theorem idles_edit {e : Edit α} (he : ∀ r, Edit.Assigned r (final (e r))) :
    Keeps Idles (edit e : RecordAction σ α) := by
  intro f hassigns hvoided
  have hsame := (he f.record).eq_of_voided hvoided
  refine idles_of_same ?_ ?_ hassigns hvoided
  · unfold edit
    cases e f.record <;> exact ⟨f.session.notices, rfl⟩
  · rw [← hsame]
    unfold edit
    cases e f.record <;> rfl

theorem idles_askAssignment (observers : List Observer)
    (values : List (String × FieldValue Record)) :
    Keeps Idles (askAssignment observers values : RecordAction σ _) := by
  intro f
  cases h : observers.forM (fun o => o.beforeAssignment f.record) values with
  | ok _ given =>
    rw [askAssignment_of_ok h]
    exact idles_of_same ⟨_, rfl⟩ rfl
  | error failure given =>
    rw [askAssignment_of_error h, final_refusal]
    exact idles_of_same ⟨_, rfl⟩ rfl

theorem idles_validate : Keeps Idles (validate : RecordAction σ Bool) :=
  keeps_validate chained_idles (idles_before .validating)
    (fun errors f _ _ => ⟨⟨f.session.notices, rfl⟩, errors, rfl⟩) (idles_after .validated)

theorem idles_fill (values : List (String × FieldValue Record)) :
    Keeps Idles (fill values : RecordAction σ Bool) := by
  have hR := chained_idles (σ := σ)
  refine hR.seq hR.read fun f => ?_
  refine hR.seq (idles_askAssignment _ values) fun given => ?_
  split
  · exact hR.result _
  · refine hR.seq (idles_edit fun r => Edit.Assigned.start.assignAll _) fun _ => ?_
    exact hR.seq (idles_after .dataSet) fun _ => hR.result _

/-- The step: nothing comes of a demand on a voided record. -/
theorem idles_run (d : Driver σ) (demand : Demand) : Keeps Idles (demand.run d) := by
  have hR := chained_idles (σ := σ)
  cases demand with
  | read name =>
    exact hR.seq (keeps_record hR) fun r =>
      hR.seq (keeps_check hR _) fun _ => hR.result _
  | assign name v => exact idles_edit fun r => Edit.Assigned.start.assign name v
  | assignAll values => exact idles_edit fun r => Edit.Assigned.start.assignAll values
  | save =>
    exact hR.seq (idles_of_refused fun _ h => save_of_voided h d) fun _ => hR.result _
  | delete =>
    exact hR.seq (idles_of_refused fun _ h => delete_of_voided h d) fun _ => hR.result _
  | fill values => exact hR.seq (idles_fill values) fun _ => hR.result _
  | validate => exact hR.seq idles_validate fun _ => hR.result _
  | load name =>
    exact hR.seq (idles_of_refused fun _ h => load_of_voided h d name) fun _ => hR.result _

/-- The run: a record that holds nothing stays so. -/
theorem Outcomes.dead {start r : Record} (h : Outcomes start r) (hstart : start.Dead) :
    r.Dead := by
  induction h with
  | start => exact hstart
  | @step _ r d s demand _ hassigns ih =>
    obtain ⟨-, errors, hsame⟩ := idles_run d demand ⟨s, r⟩ hassigns ih.voided
    rw [hsame]
    exact ⟨ih.voided, ih.data, ih.extra, ih.initial, ih.relations, ih.pending⟩

/-- A record that a deletion voided stays dead. Whatever was asked of it since, in any sessions and
with any drivers where its observers only assign, it holds nothing. To read or to assign to any of
its fields, to save it, to delete it and to load any of its relations are refused; and of whatever
is asked of it nothing becomes of a session but that observers are told, so nothing is sent. -/
theorem voided_for_good (d : Driver σ) {f : Focus σ} (hlive : f.record.voided = false)
    (hvoided : (final (delete d f)).record.voided = true) {r : Record}
    (hlater : Outcomes (final (delete d f)).record r) :
    r.Dead ∧
    (∀ name, r.fieldValue name = .error (.voided r.model)) ∧
    (∀ name v, Edit.assign name v r = .error (.voided r.model) r) ∧
    ∀ (τ : Type) (d' : Driver τ) (s : Session τ),
      save d' ⟨s, r⟩ = .error (.voided r.model) ⟨s, r⟩ ∧
      delete d' ⟨s, r⟩ = .error (.voided r.model) ⟨s, r⟩ ∧
      (∀ name, load d' name ⟨s, r⟩ = .error (.voided r.model) ⟨s, r⟩) ∧
      ((∀ o ∈ s.observers.ofModel r.model, o.AssignsOnly) → ∀ demand : Demand,
        ∃ notices, (final (demand.run d' ⟨s, r⟩)).session = { s with notices }) := by
  have hdead : r.Dead := hlater.dead (dead_of_delete hlive hvoided)
  refine ⟨hdead, Record.fieldValue_of_voided hdead.voided,
    Edit.assign_of_voided hdead.voided, fun τ d' s => ?_⟩
  refine ⟨save_of_voided hdead.voided d', delete_of_voided hdead.voided d',
    load_of_voided hdead.voided d', fun hassigns demand => ?_⟩
  exact (idles_run d' demand ⟨s, r⟩ hassigns hdead.voided).1

def rewriter : Observer where
  label := "rewriter"
  editing _ := Edit.asReaction (Edit.assign "body" (.scalar (.text "b")))

theorem assignsOnly_rewriter : rewriter.AssignsOnly := by
  refine Observer.assignsOnly_of_editing fun e r => ?_
  change Edit.Assigned r (final ((Edit.assign "body" _).asReaction r))
  rw [final_asReaction]
  exact Edit.Assigned.start.assign "body" _

def storedNote : Focus Scripted.Servers where
  session := { Scripted.session [noteSample] with observers := .registered [("*", rewriter)] }
  record := .ofRow noteSample [("id", .int64 5), ("body", .text "a")]

/-- The note is deleted with one statement, validated and filled, and then not saved. -/
theorem storedNote_voided : ∃ r, Outcomes (final (delete Scripted.driver storedNote)).record r ∧
    (final (delete Scripted.driver storedNote)).session.sent.length = 1 ∧ r.Dead ∧
    save Scripted.driver ⟨storedNote.session, r⟩ =
      .error (.voided r.model) ⟨storedNote.session, r⟩ := by
  have honly : ∀ o ∈ storedNote.session.observers.ofModel "Note", o.AssignsOnly := by
    intro o ho
    rw [show storedNote.session.observers = .registered [("*", rewriter)] from rfl,
      Observers.ofModel_registered] at ho
    obtain ⟨name, hentry⟩ := Observers.mem_of_mem_inOrder ho
    cases List.mem_singleton.1 hentry
    exact assignsOnly_rewriter
  have hvoided : (final (delete Scripted.driver storedNote)).record.voided = true := by
    decide +kernel
  have hstart : Outcomes (final (delete Scripted.driver storedNote)).record _ := .start
  have hvalidated := hstart.step Scripted.driver storedNote.session .validate
    (by rw [show Record.model _ = "Note" by decide +kernel]; exact honly)
  have hfilled := hvalidated.step Scripted.driver storedNote.session
    (.fill [("body", .scalar (.text "c"))])
    (by rw [show Record.model _ = "Note" by decide +kernel]; exact honly)
  obtain ⟨hdead, -, -, hlast⟩ := voided_for_good Scripted.driver rfl hvoided hfilled
  exact ⟨_, hfilled, by decide +kernel, hdead, (hlast _ Scripted.driver storedNote.session).1⟩

end RecordAction

end RowMapper
