import RowMapper.Proofs.Session.FirstSave
import RowMapper.Proofs.Session.Hooks

/-! # Refused saves

A save comes to its hooks one after another, and to each with what the observers of the
one before it left of the record. It is refused by a veto at a hook or by the validation,
and by nothing else, and then it has not even opened a connection.
-/

namespace RowMapper

open Run

variable {σ α : Type}

namespace RecordAction

open Observer

/-! ## The parts of a save -/

def permitted (inserting : Bool) : RecordAction σ Bool :=
  if inserting then prepared else before .updating

/-- A save up to its first statement: whether the row is a new one, unless the save was refused. -/
def cleared : RecordAction σ (Option Bool) := do
  if !(← admitted) then return none
  let inserting := (← record).isNew
  if !(← permitted inserting) then return none
  return some inserting

def sendChanges (d : Driver σ) : RecordAction σ Bool := do
  if !(← record).changedColumns.isEmpty then updateColumns d
  after .updated
  return true

def sendRecord (d : Driver σ) (inserting : Bool) : RecordAction σ Bool :=
  if inserting then sendRow d else sendChanges d

def proceed (d : Driver σ) (inserting : Bool) : RecordAction σ Bool := do
  if !(← sendRecord d inserting) then return false
  let _ ← saveLinks d
  finishSave inserting

theorem writeRow_eq (d : Driver σ) : writeRow d = (do
    let inserting := (← record).isNew
    if !(← permitted inserting) then return false
    sendRecord d inserting) := by
  unfold writeRow permitted sendRecord
  refine bind_congr fun r => ?_
  cases r.isNew with
  | true => exact insertRow_eq d
  | false => rfl

theorem save_eq_cleared (d : Driver σ) : save d = (do
    match ← cleared with
    | none => return false
    | some inserting => proceed d inserting) := by
  rw [save_eq, saveRow_eq]
  unfold cleared
  simp only [writeRow_eq, bind_assoc]
  refine bind_congr fun admitted => ?_
  cases admitted with
  | false => rfl
  | true =>
    funext f
    simp only [Bool.not_true, Bool.false_eq_true, if_false, bind_assoc, record_bind]
    refine congrFun (bind_congr fun permitted => ?_) f
    cases permitted with
    | false => rfl
    | true =>
      simp only [Bool.not_true, Bool.false_eq_true, if_false, pure_bind]
      refine bind_congr fun sent => ?_
      cases sent <;> rfl

/-! ## The hooks of a save -/

/-- The hook before a row is written, with the record that its observers are given: a new record is
stamped first. -/
def writingHook (s : Session σ) (r : Record) : Event × Record :=
  if r.isNew then (.creating, stampAll (.timestamp s.now.wholeSecond) s.user true r)
  else (.updating, r)

/-- The hooks that a save comes to, each with the record that its observers are given. -/
def hooks (observers : List Observer) (s : Session σ) (r : Record) : List (Event × Record) :=
  if r.voided then [] else
    (.saving, r) :: match beforeAll .saving observers r with
      | .error _ _ => []
      | .ok _ r => (.validating, r) :: match beforeAll .validating observers r with
        | .error _ _ => []
        | .ok _ r =>
          if r.validate.isEmpty then [writingHook s { r with errors := r.validate }] else []

def toldAt (observers : List Observer) (hooks : List (Event × Record)) : List Notice :=
  hooks.flatMap fun (e, r) => (heard (fun o => o.before e) observers r).map fun o => ⟨o.label, e⟩

def Pass (observers : List Observer) (hooks : List (Event × Record)) : Prop :=
  ∀ hook ∈ hooks, ∃ r, beforeAll hook.1 observers hook.2 = .ok () r

/-- How a save comes through its hooks: not to the first of them, up to one that fails, up to a
validation that finds something, or past all. -/
inductive Course (observers : List Observer) (f : Focus σ) :
    List (Event × Record) → EStateM.Result Error (Focus σ) (Option Bool) → Prop
  | voided : Course observers f [] (.error (.voided f.record.model) f)
  | stopped {hooks passed : List (Event × Record)} {e : Event} {r : Record} {failure : EventError}
      {g : Focus σ} (hpassed : Pass observers passed)
      (hfailure : beforeAll e observers r = .error failure g.record)
      (hhooks : hooks = passed ++ [(e, r)]) : Course observers f hooks (refusal failure none g)
  | invalid {hooks : List (Event × Record)} {r s : Record} {g : Focus σ}
      (hpassed : Pass observers hooks) (hmem : (.validating, r) ∈ hooks)
      (hvalidated : beforeAll .validating observers r = .ok () s) (hinvalid : s.validate ≠ []) :
      Course observers f hooks (.ok none g)
  | cleared {hooks : List (Event × Record)} {inserting : Bool} {g : Focus σ}
      (hpassed : Pass observers hooks) : Course observers f hooks (.ok (some inserting) g)

variable {observers : List Observer} {failure : EventError} {e : Event} {f g : Focus σ}
  {r s : Record}

theorem before_of_ok (hobserved : ObservedBy observers f) (he : e.asksAboutRecord = true)
    (h : beforeAll e observers f.record = .ok () r) :
    before e f = .ok true ⟨f.session.noting e observers, r⟩ :=
  (before_eq hobserved he).trans (askEach_of_ok h)

theorem before_of_error (hobserved : ObservedBy observers f) (he : e.asksAboutRecord = true)
    (h : beforeAll e observers f.record = .error failure r) :
    before e f = refusal failure false
      ⟨f.session.noting e (heard (fun o => o.before e) observers f.record), r⟩ :=
  (before_eq hobserved he).trans (askEach_of_error h)

theorem ObservedBy.beforeAll (hobserved : ObservedBy observers f)
    (hassigns : ∀ o ∈ observers, o.AssignsOnly) {s : Session σ}
    (hs : s.observers = f.session.observers)
    (h : beforeAll e observers f.record = .ok () r) : ObservedBy observers ⟨s, r⟩ := by
  have hassigned := assigned_beforeAll (e := e) hassigns f.record
  rw [h] at hassigned
  have hschema : r.schema = f.record.schema := hassigned.keepsMarks.schema
  change s.observers.ofModel r.schema.name = observers
  rw [hs, hschema]
  exact hobserved

theorem validate_of_ok (hobserved : ObservedBy observers f)
    (hassigns : ∀ o ∈ observers, o.AssignsOnly)
    (h : beforeAll .validating observers f.record = .ok () r) :
    validate f = .ok r.validate.isEmpty
      ⟨(f.session.noting .validating observers).noting .validated observers,
        { r with errors := r.validate }⟩ := by
  have hobserved' : ObservedBy observers ⟨f.session.noting .validating observers, r⟩ :=
    hobserved.beforeAll hassigns rfl h
  have hvalidated : ObservedBy observers
      ⟨f.session.noting .validating observers, { r with errors := r.validate }⟩ := hobserved'
  unfold validate
  rw [bind_of_ok (before_of_ok hobserved rfl h)]
  simp only [Bool.not_true, Bool.false_eq_true, if_false, record_bind]
  exact bind_of_ok (after_eq hvalidated rfl) _

theorem validate_of_error (hobserved : ObservedBy observers f)
    (h : beforeAll .validating observers f.record = .error failure r) :
    validate f = refusal failure false ⟨f.session.noting .validating
      (heard (fun o => o.before .validating) observers f.record), r⟩ :=
  bind_of_refusal (before_of_error hobserved rfl h) rfl

theorem admitted_of_ok (hlive : f.record.voided = false) (hobserved : ObservedBy observers f)
    (h : beforeAll .saving observers f.record = .ok () r) :
    admitted f = validate ⟨f.session.noting .saving observers, r⟩ := by
  unfold admitted
  rw [record_bind, bind_of_ok (check_ensureLive hlive), bind_of_ok (before_of_ok hobserved rfl h)]
  rfl

theorem admitted_of_error (hlive : f.record.voided = false) (hobserved : ObservedBy observers f)
    (h : beforeAll .saving observers f.record = .error failure r) :
    admitted f = refusal failure false
      ⟨f.session.noting .saving (heard (fun o => o.before .saving) observers f.record), r⟩ := by
  unfold admitted
  rw [record_bind, bind_of_ok (check_ensureLive hlive)]
  exact bind_of_refusal (before_of_error hobserved rfl h) rfl

/-- Whether a row may be written is for the observers of the hook before it to say. -/
theorem permitted_eq (hobserved : ObservedBy observers f) :
    permitted f.record.isNew f = askEach (writingHook f.session f.record).1 observers
      ⟨f.session, (writingHook f.session f.record).2⟩ := by
  unfold permitted writingHook
  cases f.record.isNew with
  | false => exact before_eq hobserved rfl
  | true =>
    have hstamped : ObservedBy observers ⟨f.session,
        stampAll (.timestamp f.session.now.wholeSecond) f.session.user true f.record⟩ := by
      change f.session.observers.ofModel (stampAll _ _ true f.record).schema.name = observers
      rw [(keepsLinks_stampAll _ _ true f.record).1]
      exact hobserved
    exact (bind_of_ok rfl _).trans (before_eq hstamped rfl)

/-- Where the observers of saving and of validation let a valid record pass, those of the hook
before its row are left to ask. -/
theorem cleared_of_valid (hobserved : ObservedBy observers g)
    (hadmitted : admitted f = .ok true g) :
    cleared f = (askEach (writingHook g.session g.record).1 observers >>= fun allowed =>
      pure (if allowed then some g.record.isNew else none))
        ⟨g.session, (writingHook g.session g.record).2⟩ := by
  unfold cleared
  rw [bind_of_ok hadmitted]
  simp only [Bool.not_true, Bool.false_eq_true, if_false, record_bind]
  have hbind {x y : RecordAction σ Bool} {f' g' : Focus σ} (h : x f' = y g')
      (k : Bool → RecordAction σ (Option Bool)) : (x >>= k) f' = (y >>= k) g' := by
    simp only [bind, EStateM.bind, h]
  rw [hbind (permitted_eq hobserved)]
  refine congrFun (bind_congr fun allowed => ?_) _
  cases allowed <;> rfl

theorem isBefore_writingHook (s : Session σ) (r : Record) :
    (writingHook s r).1.isBefore = true := by
  unfold writingHook
  cases r.isNew <;> rfl

theorem pass_nil (observers : List Observer) : Pass observers [] :=
  fun _ h => (List.not_mem_nil h).elim

theorem pass_cons {rest : List (Event × Record)} (h : beforeAll e observers r = .ok () s)
    (hrest : Pass observers rest) : Pass observers ((e, r) :: rest) :=
  List.forall_mem_cons.2 ⟨⟨s, h⟩, hrest⟩

theorem toldAt_nil (observers : List Observer) : toldAt observers [] = [] := rfl

theorem toldAt_cons (observers : List Observer) (e : Event) (r : Record)
    (rest : List (Event × Record)) : toldAt observers ((e, r) :: rest) =
      (heard (fun o => o.before e) observers r).map (fun o => ⟨o.label, e⟩) ++
        toldAt observers rest :=
  List.flatMap_cons

theorem cleared_of_refusal (h : admitted f = refusal failure false g) :
    cleared f = refusal failure none g :=
  bind_of_refusal h rfl

theorem cleared_of_invalid (h : admitted f = .ok false g) : cleared f = .ok none g :=
  bind_of_ok h _

/-- The course of a save of an admitted record: the hook before its row is the last. -/
theorem course_of_admitted {passed : List (Event × Record)} (hobserved : ObservedBy observers g)
    (hadmitted : admitted f = .ok true g) (hpassed : Pass observers passed) :
    Course observers f (passed ++ [writingHook g.session g.record]) (cleared f) ∧
      (final (cleared f)).session.hearings =
        g.session.hearings ++ toldAt observers [writingHook g.session g.record] := by
  have hbefore := isBefore_writingHook g.session g.record
  rw [cleared_of_valid hobserved hadmitted]
  generalize writingHook g.session g.record = hook at *
  obtain ⟨e, r⟩ := hook
  rw [toldAt_cons, toldAt_nil, List.append_nil]
  cases hwriting : beforeAll e observers r with
  | error failure s =>
    have hasked := askEach_of_error (f := ⟨g.session, r⟩) hwriting
    have hrefused : (askEach e observers >>= fun allowed =>
        pure (if allowed then some g.record.isNew else none)) ⟨g.session, r⟩ =
          refusal failure none ⟨g.session.noting e _, s⟩ := bind_of_refusal hasked rfl
    rw [hrefused, final_refusal]
    refine ⟨.stopped hpassed hwriting rfl, ?_⟩
    simp [hbefore]
  | ok _ s =>
    have hasked := askEach_of_ok (f := ⟨g.session, r⟩) hwriting
    rw [bind_of_ok hasked, if_pos rfl, heard_of_ok hwriting]
    refine ⟨.cleared ?_, ?_⟩
    · exact List.forall_mem_append.2 ⟨hpassed, pass_cons hwriting (pass_nil observers)⟩
    · simp [final, pure, EStateM.pure, hbefore]

/-- The course of a save that the observers of saving let pass. -/
theorem course_of_saving (hobserved : ObservedBy observers f)
    (hassigns : ∀ o ∈ observers, o.AssignsOnly) (hlive : f.record.voided = false)
    (hsaving : beforeAll .saving observers f.record = .ok () r) :
    Course observers f (hooks observers f.session f.record) (cleared f) ∧
      (final (cleared f)).session.hearings =
        f.session.hearings ++ toldAt observers (hooks observers f.session f.record) := by
  have hobserved₁ : ObservedBy observers ⟨f.session.noting .saving observers, r⟩ :=
    hobserved.beforeAll hassigns rfl hsaving
  have hadmitted := admitted_of_ok hlive hobserved hsaving
  simp only [hooks, hlive, hsaving, Bool.false_eq_true, if_false]
  cases hvalidating : beforeAll .validating observers r with
  | error failure s =>
    rw [cleared_of_refusal (hadmitted.trans (validate_of_error hobserved₁ hvalidating)),
      final_refusal]
    refine ⟨.stopped (pass_cons hsaving (pass_nil observers)) hvalidating rfl, ?_⟩
    simp [toldAt_cons, toldAt_nil, heard_of_ok hsaving, Event.isBefore]
  | ok _ s =>
    have hvalidated := hadmitted.trans (validate_of_ok hobserved₁ hassigns hvalidating)
    have hpassed := pass_cons hsaving (pass_cons hvalidating (pass_nil observers))
    dsimp only
    cases hvalid : s.validate.isEmpty with
    | false =>
      rw [hvalid] at hvalidated
      rw [cleared_of_invalid hvalidated]
      simp only [Bool.false_eq_true, if_false]
      refine ⟨.invalid hpassed (by simp) hvalidating (by simpa using hvalid), ?_⟩
      simp [final, toldAt_cons, toldAt_nil, heard_of_ok hsaving, heard_of_ok hvalidating,
        Event.isBefore]
    | true =>
      rw [hvalid] at hvalidated
      let g : Focus σ := ⟨((f.session.noting .saving observers).noting .validating
        observers).noting .validated observers, { s with errors := s.validate }⟩
      have hobserved₂ : ObservedBy observers ⟨g.session, s⟩ :=
        hobserved₁.beforeAll hassigns rfl hvalidating
      have hobserved₃ : ObservedBy observers g := hobserved₂
      obtain ⟨hcourse, hhearings⟩ := course_of_admitted hobserved₃ hvalidated hpassed
      have hhook : writingHook g.session g.record =
          writingHook f.session { s with errors := s.validate } := rfl
      simp only [if_true]
      refine ⟨hcourse, ?_⟩
      rw [hhearings, hhook]
      simp [g, toldAt_cons, heard_of_ok hsaving, heard_of_ok hvalidating, Event.isBefore]

/-- The course of a save through its hooks, and who is told in it. -/
theorem course_cleared (hobserved : ObservedBy observers f)
    (hassigns : ∀ o ∈ observers, o.AssignsOnly) :
    Course observers f (hooks observers f.session f.record) (cleared f) ∧
      (final (cleared f)).session.hearings =
        f.session.hearings ++ toldAt observers (hooks observers f.session f.record) := by
  cases hlive : f.record.voided with
  | true =>
    have hhooks : hooks observers f.session f.record = [] := by simp [hooks, hlive]
    have hcleared : cleared f = .error (.voided f.record.model) f :=
      bind_of_error (admitted_of_voided hlive) _
    rw [hhooks, hcleared]
    exact ⟨.voided, (List.append_nil _).symm⟩
  | false =>
    cases hsaving : beforeAll .saving observers f.record with
    | error failure r =>
      have hhooks : hooks observers f.session f.record = [(.saving, f.record)] := by
        simp [hooks, hlive, hsaving]
      rw [hhooks, cleared_of_refusal (admitted_of_error hlive hobserved hsaving), final_refusal]
      refine ⟨.stopped (pass_nil observers) hsaving rfl, ?_⟩
      simp [toldAt_cons, toldAt_nil, Event.isBefore]
    | ok _ r => exact course_of_saving hobserved hassigns hlive hsaving

/-! ## What a save leaves until its first statement -/

/-- Nothing came of an operation but that observers were told and assigned to fields. -/
structure Spared (f g : Focus σ) : Prop where
  session : ∃ notices, g.session = { f.session with notices }
  marks : f.record.KeepsMarks g.record

def Spares (f g : Focus σ) : Prop :=
  (∀ o ∈ f.session.observers.ofModel f.record.model, o.AssignsOnly) → Spared f g

theorem chained_spares : Chained (Spares (σ := σ)) where
  refl f _ := ⟨⟨f.session.notices, rfl⟩, Record.chained_keepsMarks.refl f.record⟩
  trans {f g h} hfg hgh hassigns := by
    obtain ⟨⟨_, hg⟩, hfirst⟩ := hfg hassigns
    have hsame : g.session.observers.ofModel g.record.model =
        f.session.observers.ofModel f.record.model := by
      rw [hg, Record.model, hfirst.schema]
      rfl
    obtain ⟨⟨notices, hh⟩, hsecond⟩ := hgh (hsame ▸ hassigns)
    exact ⟨⟨notices, by rw [hh, hg]⟩, Record.chained_keepsMarks.trans hfirst hsecond⟩

theorem spares_before (e : Event) : Keeps Spares (before e : RecordAction σ Bool) := by
  intro f hassigns
  obtain ⟨hsession, hassigned⟩ := assigned_before e f hassigns
  exact ⟨hsession, hassigned.keepsMarks⟩

theorem spares_after (e : Event) : Keeps Spares (after e : RecordAction σ Unit) := by
  intro f _
  obtain ⟨notices, h⟩ := after_eq_ok e f
  rw [h]
  exact ⟨⟨notices, rfl⟩, Record.chained_keepsMarks.refl f.record⟩

theorem spares_change {change : Record → Record} (h : ∀ r : Record, r.KeepsMarks (change r)) :
    Keeps Spares (RecordAction.change change : RecordAction σ Unit) :=
  fun f _ => ⟨⟨f.session.notices, rfl⟩, h f.record⟩

theorem keepsMarks_stampAll (now : Value) (user : Option Value) (inserting : Bool) (r : Record) :
    r.KeepsMarks (stampAll now user inserting r) := by
  have hR := Record.chained_keepsMarks
  exact stampAll_stores (fun s column v h => hR.trans h (s.keepsMarks_storeCoerced column v))
    now user inserting (hR.refl r)

theorem spares_admitted : Keeps Spares (admitted : RecordAction σ Bool) := by
  have hF := chained_spares (σ := σ)
  refine hF.seq (keeps_record hF) fun r => ?_
  refine hF.seq (keeps_check hF _) fun _ => ?_
  refine hF.seq (spares_before .saving) fun allowed => ?_
  split
  · exact hF.result _
  exact keeps_validate hF (spares_before .validating)
    (fun _ => spares_change fun _ => Record.keepsMarks_of_same rfl rfl rfl)
    (spares_after .validated)

theorem spares_permitted (inserting : Bool) :
    Keeps Spares (permitted inserting : RecordAction σ Bool) := by
  have hF := chained_spares (σ := σ)
  cases inserting with
  | false => exact spares_before .updating
  | true =>
    refine hF.seq (hF.seq hF.read fun _ => spares_change ?_) fun _ => spares_before .creating
    exact fun r => keepsMarks_stampAll _ _ true r

/-- Until its first statement a save only tells observers and takes over what they assign. -/
theorem spares_cleared : Keeps Spares (cleared : RecordAction σ (Option Bool)) := by
  have hF := chained_spares (σ := σ)
  refine hF.seq spares_admitted fun allowed => ?_
  split
  · exact hF.result _
  refine hF.seq (keeps_record hF) fun r => ?_
  refine hF.seq (spares_permitted _) fun allowed => ?_
  split
  · exact hF.result _
  · exact hF.result _

/-! ## From the first statement on -/

def Grants (x : RecordAction σ Bool) : Prop := ∀ f g, x f ≠ .ok false g

theorem grants_bind {x : RecordAction σ α} {k : α → RecordAction σ Bool} (hk : ∀ a, Grants (k a)) :
    Grants (x >>= k) := by
  intro f g h
  obtain ⟨a, f', -, hlast⟩ := bind_eq_ok.1 h
  exact hk a f' g hlast

theorem grants_pure : Grants (pure true : RecordAction σ Bool) := by
  intro f g h
  cases h

theorem grants_sendRecord (d : Driver σ) (inserting : Bool) : Grants (sendRecord d inserting) := by
  have told (e : Event) : Grants (after e >>= fun _ => pure true : RecordAction σ Bool) :=
    grants_bind fun _ => grants_pure
  cases inserting with
  | true =>
    refine grants_bind fun r => grants_bind fun c => grants_bind fun table => ?_
    refine grants_bind fun given => ?_
    cases given with
    | none => exact told .created
    | some key => exact grants_bind fun _ => told .created
  | false =>
    refine grants_bind fun r => ?_
    split
    · exact grants_bind fun _ => told .updated
    · exact told .updated

theorem grants_proceed (d : Driver σ) (inserting : Bool) : Grants (proceed d inserting) := by
  intro f g h
  obtain ⟨sent, f₁, hsend, hrest⟩ := bind_eq_ok.1 h
  cases sent with
  | false => exact grants_sendRecord d inserting f f₁ hsend
  | true =>
    obtain ⟨_, f₂, -, hfinish⟩ := bind_eq_ok.1 hrest
    refine grants_bind (fun _ => grants_bind fun _ => ?_) f₂ g hfinish
    split
    · exact grants_bind fun r => grants_bind fun _ => grants_pure
    · exact grants_pure

def SameHearings (s t : Session σ) : Prop := t.hearings = s.hearings

theorem serving_sameHearings (d : Driver σ) : Action.Serving d (SameHearings (σ := σ)) where
  refl s := rfl
  trans h h' := Eq.trans h' h
  connect name config s := by
    unfold Action.connect
    dsimp only
    split <;> rfl
  schema key s := rfl
  fetch c sql values s := by
    unfold Action.send
    dsimp only
    split <;> rfl
  execute c sql values s := by
    unfold Action.send
    dsimp only
    split <;> rfl

theorem sameHearings_after (e : Event) :
    Keeps (Focus.Across SameHearings) (after e : RecordAction σ Unit) := by
  intro f
  cases he : e.isBefore with
  | true =>
    unfold after
    rw [get_bind, he]
    rfl
  | false =>
    rw [after_eq rfl he]
    simp [final, Focus.Across, SameHearings, he]

theorem sameHearings_sendRecord (d : Driver σ) (inserting : Bool) :
    Keeps (Focus.Across SameHearings) (sendRecord d inserting) := by
  have hR := serving_sameHearings d
  have hF := chained_across hR.toChained
  cases inserting with
  | true => exact across_sendRow hR.toOpening (sameHearings_after .created) hR.insert
  | false =>
    have htold : Keeps (Focus.Across SameHearings)
        (after .updated >>= fun _ => pure true : RecordAction σ Bool) :=
      hF.seq (sameHearings_after .updated) fun _ => hF.result _
    refine hF.seq (across_record hR.toChained) fun r => ?_
    split
    · exact hF.seq (across_updateColumns hR.toOpening hR.update fun _ _ => rfl) fun _ => htold
    · exact htold

theorem sameHearings_proceed (d : Driver σ) (inserting : Bool) :
    Keeps (Focus.Across SameHearings) (proceed d inserting) := by
  have hR := serving_sameHearings d
  have hF := chained_across hR.toChained
  refine hF.seq (sameHearings_sendRecord d inserting) fun sent => ?_
  split
  · exact hF.result _
  refine hF.seq hR.saveLinks fun _ => ?_
  exact across_finishSave hR.toChained (sameHearings_after .saved) (fun _ _ => rfl) inserting

/-! ## Refusals -/

section

variable {d : Driver σ}

theorem save_of_cleared {inserting : Bool} (h : cleared f = .ok (some inserting) g) :
    save d f = proceed d inserting g := by
  rw [save_eq_cleared, bind_of_ok h]

theorem save_of_not_cleared (h : cleared f = .ok none g) : save d f = .ok false g := by
  rw [save_eq_cleared, bind_of_ok h]
  rfl

theorem save_of_refusal (h : cleared f = refusal failure none g) :
    save d f = refusal failure false g := by
  rw [save_eq_cleared]
  exact bind_of_refusal h rfl

/-- A save is refused before its first statement or not at all. -/
theorem not_cleared_of_save (h : save d f = .ok false g) : cleared f = .ok none g := by
  cases hcleared : cleared f with
  | error e f' =>
    rw [save_eq_cleared, bind_of_error hcleared] at h
    cases h
  | ok inserting f' =>
    cases inserting with
    | none =>
      rw [save_of_not_cleared hcleared] at h
      cases h
      rfl
    | some inserting =>
      rw [save_of_cleared hcleared] at h
      exact absurd h (grants_proceed d inserting f' g)

/-- No observer is asked after the hooks. -/
theorem hearings_save (d : Driver σ) (f : Focus σ) :
    (final (save d f)).session.hearings = (final (cleared f)).session.hearings := by
  rw [save_eq_cleared]
  cases hcleared : cleared f with
  | error e g =>
    rw [bind_of_error hcleared]
    rfl
  | ok inserting g =>
    rw [bind_of_ok hcleared]
    cases inserting with
    | none => rfl
    | some inserting => exact sameHearings_proceed d inserting g

theorem refusal_eq_ok {a b : α} (h : refusal failure a f = .ok b g) : failure.isVeto = true := by
  unfold refusal at h
  cases hveto : failure.isVeto with
  | true => rfl
  | false =>
    rw [hveto] at h
    cases h

variable {hooks : List (Event × Record)}

/-- The hook at which an observer fails decides the save. -/
theorem Course.refusal_of_mem {outcome : EStateM.Result Error (Focus σ) (Option Bool)}
    (h : Course observers f hooks outcome) (hmem : (e, r) ∈ hooks)
    (hfailure : beforeAll e observers r = .error failure s) :
    ∃ session, outcome = refusal failure none ⟨session, s⟩ := by
  have absurd_pass {passed : List (Event × Record)} (hpassed : Pass observers passed)
      (hmem : (e, r) ∈ passed) : False := by
    obtain ⟨t, ht⟩ := hpassed _ hmem
    rw [hfailure] at ht
    cases ht
  cases h with
  | voided => cases hmem
  | @stopped _ passed _ _ _ g hpassed hstopped hhooks =>
    subst hhooks
    rcases List.mem_append.1 hmem with hmem | hmem
    · exact (absurd_pass hpassed hmem).elim
    · cases List.mem_singleton.1 hmem
      rw [hfailure] at hstopped
      cases hstopped
      exact ⟨g.session, rfl⟩
  | invalid hpassed => exact (absurd_pass hpassed hmem).elim
  | cleared hpassed => exact (absurd_pass hpassed hmem).elim

/-- Only a veto or the validation refuses a save. -/
theorem Course.cause {outcome : EStateM.Result Error (Focus σ) (Option Bool)}
    (h : Course observers f hooks outcome) (hrefused : outcome = .ok none g) :
    (∃ e r failure s, (e, r) ∈ hooks ∧ beforeAll e observers r = .error failure s ∧
      failure.isVeto = true) ∨
    ∃ r s, (.validating, r) ∈ hooks ∧ beforeAll .validating observers r = .ok () s ∧
      s.validate ≠ [] := by
  cases h with
  | voided => cases hrefused
  | stopped hpassed hstopped hhooks =>
    subst hhooks
    exact .inl ⟨_, _, _, _, by simp, hstopped, refusal_eq_ok hrefused⟩
  | invalid hpassed hmem hvalidated hinvalid => exact .inr ⟨_, _, hmem, hvalidated, hinvalid⟩
  | cleared => cases hrefused

/-! ## Assignments to several fields -/

variable {values : List (String × FieldValue Record)}

theorem fill_of_error {given : List (String × FieldValue Record)}
    (hobserved : ObservedBy observers f)
    (h : observers.forM (fun o => o.beforeAssignment f.record) values = .error failure given) :
    fill values f = refusal failure false ⟨f.session.noting .settingData
      (heard (fun o => o.beforeAssignment f.record) observers values), f.record⟩ := by
  unfold fill
  rw [get_bind, show f.session.observers.ofModel f.record.model = observers from hobserved]
  exact bind_of_refusal (askAssignment_of_error h) rfl

theorem fill_of_ok {given : List (String × FieldValue Record)}
    (hobserved : ObservedBy observers f)
    (h : observers.forM (fun o => o.beforeAssignment f.record) values = .ok () given) :
    fill values f = (edit (Edit.assignAll given) >>= fun _ => after .dataSet >>= fun _ => pure true)
      ⟨f.session.noting .settingData observers, f.record⟩ := by
  unfold fill
  rw [get_bind, show f.session.observers.ofModel f.record.model = observers from hobserved,
    bind_of_ok (askAssignment_of_ok h)]

/-- An assignment to several fields is refused by a veto alone, and then nothing is assigned. -/
theorem fill_refused (hobserved : ObservedBy observers f) :
    fill values f = .ok false g ↔ ∃ failure given,
      observers.forM (fun o => o.beforeAssignment f.record) values = .error failure given ∧
      failure.isVeto = true ∧ g = ⟨f.session.noting .settingData
        (heard (fun o => o.beforeAssignment f.record) observers values), f.record⟩ := by
  cases h : observers.forM (fun o => o.beforeAssignment f.record) values with
  | ok _ given =>
    have hgrants : Grants (edit (Edit.assignAll given) >>= fun _ => after .dataSet >>= fun _ =>
        pure true : RecordAction σ Bool) := grants_bind fun _ => grants_bind fun _ => grants_pure
    rw [fill_of_ok hobserved h]
    constructor
    · intro hrefused
      exact absurd hrefused (hgrants _ g)
    · rintro ⟨_, _, hfailed, -⟩
      cases hfailed
  | error failure given =>
    rw [fill_of_error hobserved h]
    constructor
    · intro hrefused
      have hveto := refusal_eq_ok hrefused
      have hfinal := final_refusal failure false (⟨f.session.noting .settingData
        (heard (fun o => o.beforeAssignment f.record) observers values), f.record⟩ : Focus σ)
      rw [hrefused] at hfinal
      exact ⟨failure, given, rfl, hveto, hfinal⟩
    · rintro ⟨_, _, hfailed, hveto, rfl⟩
      cases hfailed
      rw [refusal, hveto]
      rfl

/-- A save comes to hooks, with observers that were registered in some order and do nothing to a
record but assign to its fields. At each hook those of every model are asked first, then those of
the model, in that order, up to the first that fails; if this is a veto, the save is refused, and if
it is any other failure, it is the save's error. Besides, only the validation refuses a save. Of a
save that is refused nothing has become of the session but that observers were told, so nothing was
sent and no copy was kept or dropped; the assigned links are still assigned, and what was changed is
still changed from what it was. An assignment to several fields is refused by a veto alone, and
leaves the record as it was. -/
theorem save_refusals (d : Driver σ) {registrations : List (String × Observer)} {f : Focus σ}
    (hobservers : f.session.observers = Observers.registered registrations)
    (hassigns : ∀ entry ∈ registrations, entry.2.AssignsOnly) :
    let observers := Observers.inOrder registrations f.record.model
    let met := RecordAction.hooks observers f.session f.record
    (∀ g, save d f = .ok false g → Spared f g) ∧
    (final (save d f)).session.hearings = f.session.hearings ++ toldAt observers met ∧
    (∀ e r failure s, (e, r) ∈ met → beforeAll e observers r = .error failure s →
      ∃ session, save d f = refusal failure false ⟨session, s⟩) ∧
    (∀ g, save d f = .ok false g →
      (∃ e r failure s, (e, r) ∈ met ∧ beforeAll e observers r = .error failure s ∧
        failure.isVeto = true) ∨
      ∃ r s, (.validating, r) ∈ met ∧ beforeAll .validating observers r = .ok () s ∧
        s.validate ≠ []) ∧
    (∀ e r, (∀ s, beforeAll e observers r = .ok () s →
        heard (fun o => o.before e) observers r = observers) ∧
      ∀ failure s, beforeAll e observers r = .error failure s → ∃ front o rest t,
        observers = front ++ o :: rest ∧
        heard (fun o => o.before e) observers r = front ++ [o] ∧
        beforeAll e front r = .ok () t ∧ o.before e t = .error failure s) ∧
    ∀ values g, fill values f = .ok false g ↔ ∃ failure given,
      observers.forM (fun o => o.beforeAssignment f.record) values = .error failure given ∧
      failure.isVeto = true ∧ g = ⟨f.session.noting .settingData
        (heard (fun o => o.beforeAssignment f.record) observers values), f.record⟩ := by
  intro observers met
  have hobserved : ObservedBy observers f := by
    rw [ObservedBy, hobservers, Observers.ofModel_registered]
  have honly : ∀ o ∈ observers, o.AssignsOnly := by
    intro o ho
    obtain ⟨name, hentry⟩ := Observers.mem_of_mem_inOrder ho
    exact hassigns _ hentry
  obtain ⟨hcourse, hhearings⟩ := course_cleared hobserved honly
  refine ⟨fun g h => ?_, ?_, fun e r failure s hmem hfailure => ?_, fun g h => ?_,
    fun e r => ⟨fun s => heard_of_ok, fun failure s => heard_of_error⟩,
    fun values g => fill_refused hobserved⟩
  · have hspared : Spared f (final (cleared f)) :=
      spares_cleared f (show ∀ o ∈ f.session.observers.ofModel f.record.model, _ by
        rwa [show f.session.observers.ofModel f.record.model = observers from hobserved])
    rwa [not_cleared_of_save h] at hspared
  · rw [hearings_save, hhearings]
  · obtain ⟨session, hrefusal⟩ := hcourse.refusal_of_mem hmem hfailure
    exact ⟨session, save_of_refusal hrefusal⟩
  · exact hcourse.cause (not_cleared_of_save h)

end

def editor : Observer where
  label := "editor"
  editing e := if e = .saving then Edit.asReaction (Edit.assign "body" (.scalar (.text "b")))
    else pure ()

def gatekeeper : Observer where
  label := "gatekeeper"
  editing e := if e = .creating then throw (.propagationStopped "closed") else pure ()

def watcher : Observer where
  label := "watcher"

theorem final_asReaction (edit : Edit Unit) (r : Record) :
    final (edit.asReaction r) = final (edit r) := by
  unfold Edit.asReaction
  cases edit r <;> rfl

theorem assignsOnly_editor : editor.AssignsOnly := by
  refine Observer.assignsOnly_of_editing fun e r => ?_
  unfold editor
  dsimp only
  split
  · rw [final_asReaction]
    exact Edit.Assigned.start.assign "body" _
  · exact .start

theorem assignsOnly_gatekeeper : gatekeeper.AssignsOnly := by
  refine Observer.assignsOnly_of_editing fun e r => ?_
  unfold gatekeeper
  dsimp only
  split <;> exact .start

theorem assignsOnly_watcher : watcher.AssignsOnly :=
  Observer.assignsOnly_of_editing fun _ _ => .start

def noteObservers : List (String × Observer) :=
  [("Note", gatekeeper), ("Note", watcher), ("*", editor)]

def observedNote : Focus Scripted.Servers :=
  { newNote with session := { newNote.session with observers := .registered noteObservers } }

/-- The note is not created. The editor is asked first at each hook, and the watcher is not told of
the creation. -/
theorem observedNote_refused : ∃ g, save Scripted.driver observedNote = .ok false g ∧
    Spared observedNote g ∧
    g.session.hearings.map (fun notice => (notice.label, notice.event)) =
      [("editor", .saving), ("gatekeeper", .saving), ("watcher", .saving),
        ("editor", .validating), ("gatekeeper", .validating), ("watcher", .validating),
        ("editor", .creating), ("gatekeeper", .creating)] := by
  have hassigns : ∀ entry ∈ noteObservers, entry.2.AssignsOnly := by
    simp [noteObservers, assignsOnly_editor, assignsOnly_gatekeeper, assignsOnly_watcher]
  have hsave : save Scripted.driver observedNote =
      .ok false (final (save Scripted.driver observedNote)) :=
    eq_ok_of_value? (by decide +kernel)
  obtain ⟨hspared, -⟩ := save_refusals Scripted.driver (f := observedNote) rfl hassigns
  exact ⟨_, hsave, hspared _ hsave, by decide +kernel⟩

end RecordAction

end RowMapper
