import RowMapper.Proofs.Record.Effects

/-! # Single writes to a record

An assignment makes of a record what a few single writes make of it: the memory of what a
field was, a value among the columns, a value among the other names, and what is known of
relations. A relation that holds across each single write holds across every assignment.
-/

namespace RowMapper

open Run

/-- The columns to which assignments write: those that the model serves, and those of the keys that
its rows hold. -/
inductive Schema.Writes (s : Schema) : String → Prop
  | column {name : String} (h : s.hasColumn name = true) : Writes s name
  | key {name : String} {relation : Relation}
      (haccess : ∃ kind, s.access name = some (.relation kind))
      (hrelation : s.relation name = some relation) (hkind : relation.kind = .belongsTo) :
      Writes s relation.localColumn

namespace Record

variable {F : Record → Record → Prop} {r s : Record} {name : String}

theorem schema_remember (r : Record) (name : String) (before : FieldValue Record) :
    (r.remember name before).schema = r.schema := by
  unfold remember
  split <;> rfl

theorem across_store (hF : Chained F) {v : Value}
    (hremember : ∀ before, F r (r.remember name before))
    (hput : ∀ s : Record, s.schema = r.schema → F s (s.putData name v)) (unchanged : Bool) :
    F r (r.store name v unchanged) := by
  unfold store
  split
  · exact hF.refl r
  · cases unchanged with
    | true => exact hput r rfl
    | false => exact hF.trans (hremember _) (hput _ (r.schema_remember name _))

theorem across_storeCoerced (hF : Chained F)
    (hremember : ∀ before, F r (r.remember name before))
    (hput : ∀ (s : Record) (v : Value), s.schema = r.schema → F s (s.putData name v)) (v : Value) :
    F r (r.storeCoerced name v) := by
  unfold storeCoerced
  split
  · exact across_store hF hremember (fun s => hput s _) _
  · exact across_store hF hremember (fun s => hput s _) _

structure AcrossWrites (F : Record → Record → Prop) : Prop extends Chained F where
  remember : ∀ (r : Record) (name : String) (before : FieldValue Record),
    F r (r.remember name before)
  putData : ∀ (r : Record) (name : String) (v : Value), r.schema.Writes name →
    F r (r.putData name v)
  putExtra : ∀ (r : Record) (name : String) (v : Value), r.schema.access name = none →
    F r { r with extra := r.extra.put name v }
  relate : ∀ (r : Record) (relations : List (String × Related Record)), F r { r with relations }
  link : ∀ (r : Record) (name : String) (keys : List Value),
    F r { r with pending := r.pending.put name keys }

namespace AcrossWrites

theorem store (hF : AcrossWrites F) (hname : r.schema.Writes name) (v : Value)
    (unchanged : Bool) : F r (r.store name v unchanged) :=
  across_store hF.toChained (hF.remember r name)
    (fun s hs => hF.putData s name v (hs ▸ hname)) unchanged

theorem storeCoerced (hF : AcrossWrites F) (hname : r.schema.Writes name) (v : Value) :
    F r (r.storeCoerced name v) :=
  across_storeCoerced hF.toChained (hF.remember r name)
    (fun s w hs => hF.putData s name w (hs ▸ hname)) v

theorem assigned (hF : AcrossWrites F) (r : Record) (name : String) (before : FieldValue Record)
    (keys : List Value) (found : Option (Related Record)) :
    F r (r.assigned name before keys found) := by
  have hlinked := hF.trans (hF.remember r name before) (hF.link _ name keys)
  cases found with
  | none => exact hF.trans hlinked (hF.relate _ _)
  | some found => exact hF.trans hlinked (hF.relate _ _)

/-- The step: what holds across single writes holds across every assignment. -/
theorem effect (hF : AcrossWrites F) {v : FieldValue Record} (he : Edit.Effect name v r s) :
    F r s := by
  cases he with
  | refused => exact hF.refl r
  | column hname w => exact hF.storeCoerced (.column hname) w
  | sqlText hname sql => exact hF.store (.column hname) _ _
  | owner _ relation hrelation hkind _ _ haccess =>
    exact hF.trans (hF.storeCoerced (.key haccess hrelation hkind) _) (hF.relate _ _)
  | noOwner _ relation hrelation hkind haccess =>
    exact hF.trans (hF.storeCoerced (.key haccess hrelation hkind) _) (hF.relate _ _)
  | ownerKey _ relation hrelation key hkind haccess =>
    exact hF.trans (hF.storeCoerced (.key haccess hrelation hkind) key) (hF.relate _ _)
  | dependents => exact hF.relate r _
  | links _ _ _ _ before keys found => exact hF.assigned r name before keys found
  | undeclared hname w => exact hF.putExtra r name w hname

end AcrossWrites

theorem acrossWrites_schema : AcrossWrites fun r s => s.schema = r.schema where
  refl _ := rfl
  trans h h' := h'.trans h
  remember := schema_remember
  putData _ _ _ _ := rfl
  putExtra _ _ _ _ := rfl
  relate _ _ := rfl
  link _ _ _ := rfl

end Record

end RowMapper
