import RowMapper.Proofs.Run
import RowMapper.Record.Edit

/-! # What an assignment makes of a record

An assignment to one field ends in one of a few ways, whether it succeeds or fails: the
record is as it was, or a column has a value stored, or a relation keeps or forgets its
related records, with the key of the owner stored in its column, or a name that the
model does not declare has a value. Bulk assignment is a run of assignments.
-/

namespace RowMapper

open Run

namespace Record

/-- The value of the primary key; a missing one counts as null. -/
def ownKey (r : Record) : Value := (r.value? r.schema.primaryKey).getD .null

def assigned (r : Record) (name : String) (before : FieldValue Record) (keys : List Value)
    (found : Option (Related Record)) : Record :=
  let r := r.remember name before
  let r := { r with pending := r.pending.put name keys }
  match found with
  | some found => r.keep name found
  | none => r.forget name

theorem ensureLive_of_live {r : Record} (h : r.voided = false) : r.ensureLive = .ok () := by
  rw [ensureLive, h]
  rfl

end Record

namespace Edit

open Record

/-- What the assignment of a value to a field can make of a record. A refused one makes nothing of
it. -/
inductive Effect (name : String) (v : FieldValue Record) (r : Record) : Record → Prop
  | refused : Effect name v r r
  | column (hname : r.schema.hasColumn name = true) (w : Value) :
      Effect name v r (r.storeCoerced name w)
  | sqlText (hname : r.schema.hasColumn name = true) (sql : String) (hv : v = .raw sql) :
      Effect name v r (r.storeExact name (.text sql))
  | owner (hname : r.schema.hasColumn name = false) (relation : Relation)
      (hrelation : r.schema.relation name = some relation) (hkind : relation.kind = .belongsTo)
      (owner : Record) (hv : v = .related owner)
      (haccess : ∃ kind, r.schema.access name = some (.relation kind)) :
      Effect name v r
        ((r.storeCoerced relation.localColumn owner.ownKey).keep name (.one (some owner)))
  | noOwner (hname : r.schema.hasColumn name = false) (relation : Relation)
      (hrelation : r.schema.relation name = some relation) (hkind : relation.kind = .belongsTo)
      (haccess : ∃ kind, r.schema.access name = some (.relation kind)) :
      Effect name v r ((r.storeCoerced relation.localColumn .null).keep name (.one none))
  | ownerKey (hname : r.schema.hasColumn name = false) (relation : Relation)
      (hrelation : r.schema.relation name = some relation) (key : Value)
      (hkind : relation.kind = .belongsTo)
      (haccess : ∃ kind, r.schema.access name = some (.relation kind)) :
      Effect name v r ((r.storeCoerced relation.localColumn key).forget name)
  | dependents (hname : r.schema.hasColumn name = false) (relation : Relation)
      (hrelation : r.schema.relation name = some relation) (hkind : relation.kind ≠ .belongsTo)
      (found : Related Record) : Effect name v r (r.keep name found)
  | links (hname : r.schema.hasColumn name = false) (relation : Relation)
      (hrelation : r.schema.relation name = some relation) (hkind : relation.kind ≠ .belongsTo)
      (before : FieldValue Record) (keys : List Value) (found : Option (Related Record)) :
      Effect name v r (r.assigned name before keys found)
  | undeclared (hname : r.schema.access name = none) (w : Value) :
      Effect name v r { r with extra := r.extra.put name w }

variable {name : String} {v : FieldValue Record} {r : Record} {relation : Relation}

/-- After a check the rest of an edit runs on the same record, or nothing does. -/
theorem final_check_bind {α : Type} (outcome : Except Error α) (f : α → Edit Unit) (r : Record) :
    final ((check outcome >>= f) r) = match outcome with
      | .ok a => final (f a r)
      | .error _ => r := by
  cases outcome <;> rfl

theorem hasColumn_of_relation (haccess : ∃ kind, r.schema.access name = some (.relation kind)) :
    r.schema.hasColumn name = false := by
  obtain ⟨kind, h⟩ := haccess
  simp [Schema.hasColumn, h]

theorem effect_assignColumn (hname : r.schema.hasColumn name = true) :
    Effect name v r (final (assignColumn name v r)) := by
  unfold assignColumn
  split
  · exact .sqlText hname _ rfl
  · rw [final_check_bind]
    split
    · exact .column hname _
    · exact .refused

theorem effect_assignOwner (haccess : ∃ kind, r.schema.access name = some (.relation kind))
    (hrelation : r.schema.relation name = some relation) (hkind : relation.kind = .belongsTo) :
    Effect name v r (final (assignOwner name relation v r)) := by
  have hname := hasColumn_of_relation haccess
  cases v with
  | related owner =>
    change Effect name _ r (final ((check (r.checkTarget name relation owner) >>= _) r))
    rw [final_check_bind]
    split
    · exact .owner hname relation hrelation hkind owner rfl haccess
    · exact .refused
  | null => exact .noOwner hname relation hrelation hkind haccess
  | scalar key => exact .ownerKey hname relation hrelation key hkind haccess
  | list _ | relatedList _ | raw _ => exact .refused

theorem effect_assignDependent (hname : r.schema.hasColumn name = false)
    (hrelation : r.schema.relation name = some relation) (hkind : relation.kind ≠ .belongsTo) :
    Effect name v r (final (assignDependent name relation v r)) := by
  cases v with
  | related record =>
    change Effect name _ r (final ((check (r.checkTarget name relation record) >>= _) r))
    rw [final_check_bind]
    split
    · exact .dependents hname relation hrelation hkind _
    · exact .refused
  | null => exact .dependents hname relation hrelation hkind _
  | scalar _ | list _ | relatedList _ | raw _ => exact .refused

theorem effect_assignDependents (hname : r.schema.hasColumn name = false)
    (hrelation : r.schema.relation name = some relation) (hkind : relation.kind ≠ .belongsTo) :
    Effect name v r (final (assignDependents name relation v r)) := by
  cases v with
  | relatedList records =>
    change Effect name _ r (final ((check (r.checkTargets name relation records) >>= _) r))
    rw [final_check_bind]
    split
    · exact .dependents hname relation hrelation hkind _
    · exact .refused
  | null => exact .dependents hname relation hrelation hkind _
  | scalar _ | list _ | related _ | raw _ => exact .refused

theorem final_assignKeys (name : String) (before : FieldValue Record) (keys : List Value)
    (found : Option (Related Record)) (r : Record) :
    final (assignKeys name before keys found r) = r.assigned name before keys found := by
  cases found <;> rfl

theorem effect_assignLinks (hname : r.schema.hasColumn name = false)
    (hrelation : r.schema.relation name = some relation) (hkind : relation.kind ≠ .belongsTo) :
    Effect name v r (final (assignLinks name relation v r)) := by
  have linked (before : FieldValue Record) (keys : List Value) (found : Option (Related Record)) :
      Effect name v r (final (assignKeys name before keys found r)) := by
    rw [final_assignKeys]
    exact .links hname relation hrelation hkind before keys found
  change Effect name v r (final ((check (r.fieldValue name) >>= _) r))
  rw [final_check_bind]
  split
  · next before _ =>
    cases v with
    | relatedList records =>
      rw [final_check_bind]
      split
      · exact linked _ _ _
      · exact .refused
    | list keys => exact linked _ _ _
    | scalar key => exact linked _ _ _
    | null => exact linked _ _ _
    | related _ | raw _ => exact .refused
  · exact .refused

theorem effect_assignRelation (haccess : ∃ kind, r.schema.access name = some (.relation kind))
    (hrelation : r.schema.relation name = some relation) :
    Effect name v r (final (assignRelation name relation v r)) := by
  have hname := hasColumn_of_relation haccess
  unfold assignRelation
  cases hkind : relation.kind with
  | belongsTo => exact effect_assignOwner haccess hrelation hkind
  | hasOne => exact effect_assignDependent hname hrelation (by simp [hkind])
  | hasMany => exact effect_assignDependents hname hrelation (by simp [hkind])
  | manyToMany => exact effect_assignLinks hname hrelation (by simp [hkind])

theorem effect_assignUndeclared (hname : r.schema.access name = none) :
    Effect name v r (final (assignUndeclared name v r)) := by
  have stored : Effect name v r (final ((check v.toValue >>= fun w =>
      modify fun r => { r with extra := r.extra.put name w }) r)) := by
    rw [final_check_bind]
    split
    · exact .undeclared hname _
    · exact .refused
  cases v with
  | related _ | relatedList _ => exact .refused
  | null | scalar _ | list _ | raw _ => exact stored

theorem effect_assign (name : String) (v : FieldValue Record) (r : Record) :
    Effect name v r (final (assign name v r)) := by
  change Effect name v r (final ((check r.ensureLive >>= _) r))
  rw [final_check_bind]
  split
  · cases ha : r.schema.access name with
    | none => exact effect_assignUndeclared ha
    | some access =>
      cases access with
      | column => exact effect_assignColumn (by simp [Schema.hasColumn, ha])
      | computed => exact .refused
      | relation kind =>
        cases hrelation : r.schema.relation name with
        | some relation => exact effect_assignRelation ⟨kind, ha⟩ hrelation
        | none => exact .refused
  · exact .refused

/-! ## Single values that are assigned to a live record -/

theorem check_ensureLive (hlive : r.voided = false) :
    (check r.ensureLive : Edit Unit) r = .ok () r := by
  rw [ensureLive_of_live hlive]
  rfl

theorem assign_column (hlive : r.voided = false) (haccess : r.schema.access name = some .column)
    (w : Value) : assign name (.scalar w) r = .ok () (r.storeCoerced name w) := by
  change (check r.ensureLive >>= _) r = _
  rw [bind_of_ok (check_ensureLive hlive), haccess]
  rfl

theorem assign_undeclared (hlive : r.voided = false) (haccess : r.schema.access name = none)
    (w : Value) : assign name (.scalar w) r = .ok () { r with extra := r.extra.put name w } := by
  change (check r.ensureLive >>= _) r = _
  rw [bind_of_ok (check_ensureLive hlive), haccess]
  rfl

/-- The key of an owner goes to the column of the relation, and the owner is forgotten. -/
theorem assign_ownerKey (hlive : r.voided = false)
    (haccess : ∃ kind, r.schema.access name = some (.relation kind))
    (hrelation : r.schema.relation name = some relation) (hkind : relation.kind = .belongsTo)
    (key : Value) : assign name (.scalar key) r =
      .ok () ((r.storeCoerced relation.localColumn key).forget name) := by
  obtain ⟨kind, haccess⟩ := haccess
  change (check r.ensureLive >>= _) r = _
  rw [bind_of_ok (check_ensureLive hlive), haccess, hrelation]
  simp only [assignRelation, hkind]
  rfl

/-- A value that is assigned to a name that is no relation goes to the store of the name. -/
theorem assign_scalar_cases {w : Value} {s : Record}
    (hname : ∀ kind, r.schema.access name ≠ some (.relation kind))
    (h : assign name (.scalar w) r = .ok () s) : r.voided = false ∧
      (r.schema.access name = some .column ∧ s = r.storeCoerced name w ∨
        r.schema.access name = none ∧ s = { r with extra := r.extra.put name w }) := by
  have hlive : r.voided = false := by
    cases hvoided : r.voided with
    | false => rfl
    | true =>
      change (check r.ensureLive >>= _) r = _ at h
      rw [ensureLive, hvoided] at h
      cases h
  refine ⟨hlive, ?_⟩
  cases haccess : r.schema.access name with
  | none =>
    rw [assign_undeclared hlive haccess] at h
    cases h
    exact .inr ⟨rfl, rfl⟩
  | some access =>
    cases access with
    | column =>
      rw [assign_column hlive haccess] at h
      cases h
      exact .inl ⟨rfl, rfl⟩
    | computed =>
      change (check r.ensureLive >>= _) r = _ at h
      rw [bind_of_ok (check_ensureLive hlive), haccess] at h
      cases h
    | relation kind => exact absurd haccess (hname kind)

end Edit

end RowMapper
