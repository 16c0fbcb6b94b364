import RowMapper.Proofs.Record.Effects

/-! # Denied assignments

Whether a record denies an assignment is decided by the record, the field and the value before
anything is written: a deleted record denies all of them, a computed field has no value to
assign, a scalar store takes no records, and a relation takes the sorts of values that suit its
kind, with records of its target only. For these reasons an assignment fails, for no other, and
then the record is as it was.
-/

namespace RowMapper

open Run

def FieldValue.isRelated {Record : Type} : FieldValue Record → Bool
  | .related _ | .relatedList _ => true
  | _ => false

def FieldValue.records {Record : Type} : FieldValue Record → List Record
  | .related record => [record]
  | .relatedList records => records
  | _ => []

def RelationKind.takes {Record : Type} : RelationKind → FieldValue Record → Bool
  | .belongsTo, .related _ | .belongsTo, .null | .belongsTo, .scalar _ => true
  | .hasOne, .related _ | .hasOne, .null => true
  | .hasMany, .relatedList _ | .hasMany, .null => true
  | .manyToMany, .relatedList _ | .manyToMany, .list _ | .manyToMany, .scalar _
  | .manyToMany, .null => true
  | _, _ => false

namespace Record

variable {r : Record} {name : String} {relation : Relation} {v : FieldValue Record} {e : Error}

/-- The first of some records that is of another model than the target of a relation. -/
def stranger? (relation : Relation) (records : List Record) : Option Record :=
  records.find? fun related => related.model ≠ relation.target.name

/-- Why a relation denies a value: its kind is assigned no values of the sort, or some record of the
value is of another model than the target. -/
def DeniesRelation (r : Record) (name : String) (relation : Relation) (v : FieldValue Record)
    (e : Error) : Prop :=
  if relation.kind.takes v then ∃ stranger, stranger? relation v.records = some stranger ∧
    r.checkTarget name relation stranger = .error e
  else e = r.unsuitable name relation v

/-- Why a record denies the assignment of a value to a field. -/
def Denies (r : Record) (name : String) (v : FieldValue Record) (e : Error) : Prop :=
  if r.voided then e = .voided r.model
  else match r.schema.access name with
    | some .column => v.toValue = .error e
    | some .computed => e = .invalidArgument ("Field '" ++ name ++ "' of model '" ++ r.model ++
        "' is computed and cannot be assigned")
    | some (.relation _) => match r.schema.relation name with
      | some relation => r.DeniesRelation name relation v e
      | none => e = .relationNotFound r.model name
    | none => v.isRelated = true ∧ e = .relationNotFound r.model name

theorem checkTarget_eq_ok {related : Record} (h : related.model = relation.target.name) :
    r.checkTarget name relation related = .ok () :=
  if_pos h

theorem checkTarget_ne_ok {related : Record} (h : related.model ≠ relation.target.name) :
    r.checkTarget name relation related ≠ .ok () := by
  rw [checkTarget, if_neg h]
  nofun

theorem checkTargets_eq_error {records : List Record} :
    r.checkTargets name relation records = .error e ↔ ∃ stranger,
      stranger? relation records = some stranger ∧
        r.checkTarget name relation stranger = .error e := by
  induction records with
  | nil => simp [checkTargets, stranger?]
  | cons first rest ih =>
    change (r.checkTarget name relation first >>= fun _ => r.checkTargets name relation rest) = _ ↔ _
    by_cases hfirst : first.model = relation.target.name
    · have hskipped : stranger? relation (first :: rest) = stranger? relation rest :=
        List.find?_cons_of_neg (by simpa using hfirst)
      rw [checkTarget_eq_ok hfirst, hskipped]
      exact ih
    · have hfound : stranger? relation (first :: rest) = some first :=
        List.find?_cons_of_pos (by simpa using hfirst)
      rw [hfound]
      cases hcheck : r.checkTarget name relation first with
      | ok _ => exact absurd hcheck (checkTarget_ne_ok hfirst)
      | error e' => simp [hcheck, bind, Except.bind]

theorem checkTarget_eq_error {related : Record} :
    r.checkTarget name relation related = .error e ↔ ∃ stranger,
      stranger? relation [related] = some stranger ∧
        r.checkTarget name relation stranger = .error e := by
  rw [← checkTargets_eq_error]
  change _ ↔ (r.checkTarget name relation related >>= fun _ => .ok ()) = _
  cases r.checkTarget name relation related <;> rfl

theorem deniesRelation_of_takes (h : relation.kind.takes v = true) :
    r.DeniesRelation name relation v e ↔ ∃ stranger,
      stranger? relation v.records = some stranger ∧
        r.checkTarget name relation stranger = .error e := by
  rw [DeniesRelation, if_pos h]

theorem not_deniesRelation (h : relation.kind.takes v = true) (hv : v.records = []) :
    ¬ r.DeniesRelation name relation v e := by
  rw [deniesRelation_of_takes h, hv]
  rintro ⟨_, hfound, -⟩
  cases hfound

theorem deniesRelation_of_not_takes (h : relation.kind.takes v = false) :
    r.DeniesRelation name relation v e ↔ e = r.unsuitable name relation v := by
  rw [DeniesRelation, if_neg (by simp [h])]

end Record

namespace Edit

open Record

variable {r s : Record} {name : String} {relation : Relation} {v : FieldValue Record} {e : Error}
  {edit : Edit Unit} {reason : Error → Prop}

/-! ## Edits that fail before they write -/

/-- On a record an edit fails for certain reasons only, and then writes nothing. -/
def FailsFor (edit : Edit Unit) (r : Record) (reason : Error → Prop) : Prop :=
  ∀ e s, edit r = .error e s ↔ reason e ∧ s = r

theorem failsFor_of_ok (h : edit r = .ok () s) (hreason : ∀ e, ¬ reason e) :
    FailsFor edit r reason := by
  intro e t
  simp [h, hreason]

theorem failsFor_of_error (h : edit r = .error e r) (hreason : ∀ e', reason e' ↔ e' = e) :
    FailsFor edit r reason := by
  intro e' t
  simp [h, hreason, eq_comm]

theorem failsFor_of_check {α : Type} {outcome : Except Error α} {f : α → Edit Unit}
    (h : edit r = (check outcome >>= f) r) (hf : ∀ a, ∃ s, f a r = .ok () s)
    (hreason : ∀ e, reason e ↔ outcome = .error e) : FailsFor edit r reason := by
  cases outcome with
  | ok a =>
    obtain ⟨s, hs⟩ := hf a
    exact failsFor_of_ok (h.trans hs) fun e => by simp [hreason]
  | error e => exact failsFor_of_error h fun e' => by simp [hreason, eq_comm]

/-! ## Columns and undeclared names -/

theorem failsFor_assignColumn (name : String) (v : FieldValue Record) (r : Record) :
    FailsFor (assignColumn name v) r fun e => v.toValue = .error e := by
  cases v with
  | raw sql => exact failsFor_of_ok rfl nofun
  | _ => exact failsFor_of_check rfl (fun _ => ⟨_, rfl⟩) fun _ => Iff.rfl

theorem failsFor_assignUndeclared (name : String) (v : FieldValue Record) (r : Record) :
    FailsFor (assignUndeclared name v) r fun e =>
      v.isRelated = true ∧ e = .relationNotFound r.model name := by
  cases v with
  | related _ | relatedList _ => exact failsFor_of_error rfl fun e => by simp [FieldValue.isRelated]
  | null | scalar _ | list _ | raw _ => exact failsFor_of_ok rfl nofun

/-! ## Relations -/

theorem failsFor_of_not_takes (htakes : relation.kind.takes v = false)
    (h : edit r = .error (r.unsuitable name relation v) r) :
    FailsFor edit r (r.DeniesRelation name relation v) :=
  failsFor_of_error h fun _ => deniesRelation_of_not_takes htakes

theorem failsFor_of_takes (htakes : relation.kind.takes v = true) (hv : v.records = [])
    (h : edit r = .ok () s) : FailsFor edit r (r.DeniesRelation name relation v) :=
  failsFor_of_ok h fun _ => not_deniesRelation htakes hv

theorem failsFor_checkTarget {related : Record} {f : Unit → Edit Unit}
    (htakes : relation.kind.takes (.related related) = true)
    (h : edit r = (check (r.checkTarget name relation related) >>= f) r)
    (hf : ∃ s, f () r = .ok () s) :
    FailsFor edit r (r.DeniesRelation name relation (.related related)) :=
  failsFor_of_check h (fun _ => hf) fun _ =>
    (deniesRelation_of_takes htakes).trans checkTarget_eq_error.symm

theorem failsFor_checkTargets {records : List Record} {f : Unit → Edit Unit}
    (htakes : relation.kind.takes (.relatedList records) = true)
    (h : edit r = (check (r.checkTargets name relation records) >>= f) r)
    (hf : ∃ s, f () r = .ok () s) :
    FailsFor edit r (r.DeniesRelation name relation (.relatedList records)) :=
  failsFor_of_check h (fun _ => hf) fun _ =>
    (deniesRelation_of_takes htakes).trans checkTargets_eq_error.symm

theorem failsFor_assignOwner (hkind : relation.kind = .belongsTo) :
    FailsFor (assignOwner name relation v) r (r.DeniesRelation name relation v) := by
  cases v with
  | related owner => exact failsFor_checkTarget (by rw [hkind]; rfl) rfl ⟨_, rfl⟩
  | null | scalar _ => exact failsFor_of_takes (by rw [hkind]; rfl) rfl rfl
  | list _ | relatedList _ | raw _ => exact failsFor_of_not_takes (by rw [hkind]; rfl) rfl

theorem failsFor_assignDependent (hkind : relation.kind = .hasOne) :
    FailsFor (assignDependent name relation v) r (r.DeniesRelation name relation v) := by
  cases v with
  | related record => exact failsFor_checkTarget (by rw [hkind]; rfl) rfl ⟨_, rfl⟩
  | null => exact failsFor_of_takes (by rw [hkind]; rfl) rfl rfl
  | scalar _ | list _ | relatedList _ | raw _ =>
    exact failsFor_of_not_takes (by rw [hkind]; rfl) rfl

theorem failsFor_assignDependents (hkind : relation.kind = .hasMany) :
    FailsFor (assignDependents name relation v) r (r.DeniesRelation name relation v) := by
  cases v with
  | relatedList records => exact failsFor_checkTargets (by rw [hkind]; rfl) rfl ⟨_, rfl⟩
  | null => exact failsFor_of_takes (by rw [hkind]; rfl) rfl rfl
  | scalar _ | list _ | related _ | raw _ =>
    exact failsFor_of_not_takes (by rw [hkind]; rfl) rfl

theorem exists_fieldValue (hlive : r.voided = false) (name : String) :
    ∃ before, r.fieldValue name = .ok before := by
  rw [fieldValue, ensureLive_of_live hlive]
  dsimp only [bind, Except.bind]
  repeat' split
  all_goals exact ⟨_, rfl⟩

theorem failsFor_assignLinks (hlive : r.voided = false) (hkind : relation.kind = .manyToMany) :
    FailsFor (assignLinks name relation v) r (r.DeniesRelation name relation v) := by
  obtain ⟨before, hbefore⟩ := exists_fieldValue hlive name
  have hread {f : FieldValue Record → Edit Unit} :
      (check (r.fieldValue name) >>= f) r = f before r := by
    rw [hbefore]
    rfl
  cases v with
  | relatedList records =>
    exact failsFor_checkTargets (by rw [hkind]; rfl) hread ⟨_, rfl⟩
  | null | scalar _ | list _ => exact failsFor_of_takes (by rw [hkind]; rfl) rfl hread
  | related _ | raw _ => exact failsFor_of_not_takes (by rw [hkind]; rfl) hread

theorem failsFor_assignRelation (hlive : r.voided = false) (name : String) (relation : Relation)
    (v : FieldValue Record) :
    FailsFor (assignRelation name relation v) r (r.DeniesRelation name relation v) := by
  unfold assignRelation
  cases hkind : relation.kind with
  | belongsTo => exact failsFor_assignOwner hkind
  | hasOne => exact failsFor_assignDependent hkind
  | hasMany => exact failsFor_assignDependents hkind
  | manyToMany => exact failsFor_assignLinks hlive hkind

/-- An assignment fails just for the reasons for which the record denies it, and then the record is as
it was: its data, its changed fields, its related records, its assigned links and all else. -/
theorem assign_eq_error_iff (name : String) (v : FieldValue Record) (r s : Record) (e : Error) :
    assign name v r = .error e s ↔ r.Denies name v e ∧ s = r := by
  suffices h : FailsFor (assign name v) r (r.Denies name v) from h e s
  cases hvoided : r.voided with
  | true =>
    have hfailed : assign name v r = .error (.voided r.model) r := by
      change (check r.ensureLive >>= _) r = _
      rw [ensureLive, hvoided]
      rfl
    exact failsFor_of_error hfailed fun e => by rw [Denies, if_pos hvoided]
  | false =>
    have hdenies : r.Denies name v = _ := funext fun e => if_neg (by simp [hvoided])
    have hassign : assign name v r = _ := bind_of_ok (check_ensureLive hvoided) _
    unfold FailsFor
    rw [hdenies, hassign]
    cases haccess : r.schema.access name with
    | none => exact failsFor_assignUndeclared name v r
    | some access => cases access with
      | column => exact failsFor_assignColumn name v r
      | computed => exact failsFor_of_error rfl fun _ => Iff.rfl
      | relation _ => cases hrelation : r.schema.relation name with
        | some relation => exact failsFor_assignRelation hvoided name relation v
        | none => exact failsFor_of_error rfl fun _ => Iff.rfl

end Edit

end RowMapper
