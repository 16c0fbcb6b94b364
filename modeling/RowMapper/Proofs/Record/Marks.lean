import RowMapper.Proofs.Record.Changes

/-! # Marks of changes

What a record is to be saved with: the fields that changed, each with what it was, and
the links that were assigned. No assignment takes a mark away or alters what a changed
field was, whether it succeeds or fails.
-/

namespace RowMapper

open Run

namespace Record

/-- Links that were assigned are still assigned, and changed fields are still changed from what they
were. -/
structure KeepsMarks (r s : Record) : Prop where
  schema : s.schema = r.schema
  pending : ∀ name, r.pending.has name = true → s.pending.has name = true
  initial : ∀ name before, r.initial? name = some before → s.initial? name = some before

theorem chained_keepsMarks : Chained KeepsMarks where
  refl _ := ⟨rfl, fun _ h => h, fun _ _ h => h⟩
  trans h h' := ⟨h'.schema.trans h.schema, fun name hp => h'.pending name (h.pending name hp),
    fun name before hi => h'.initial name before (h.initial name before hi)⟩

theorem keepsMarks_of_same {r s : Record} (hschema : s.schema = r.schema)
    (hpending : s.pending = r.pending) (hinitial : s.initial = r.initial) : KeepsMarks r s where
  schema := hschema
  pending name h := by rwa [hpending]
  initial name before h := by rwa [initial?, hinitial]

theorem keepsMarks_remember (r : Record) (name : String) (before : FieldValue Record) :
    KeepsMarks r (r.remember name before) := by
  unfold remember
  cases hdirty : r.isDirty name with
  | true => exact chained_keepsMarks.refl r
  | false =>
    refine ⟨rfl, fun _ h => h, fun other known h => ?_⟩
    have hne : name ≠ other := by
      rintro rfl
      simp [isDirty, Entries.has, show Entries.get? r.initial name = some known from h] at hdirty
    exact (Entries.get?_put_of_ne r.initial before hne).trans h

theorem acrossWrites_keepsMarks : AcrossWrites KeepsMarks where
  toChained := chained_keepsMarks
  remember := keepsMarks_remember
  putData _ _ _ _ := keepsMarks_of_same rfl rfl rfl
  putExtra _ _ _ _ := keepsMarks_of_same rfl rfl rfl
  relate _ _ := keepsMarks_of_same rfl rfl rfl
  link r name keys := by
    refine ⟨rfl, fun other h => ?_, fun _ _ h => h⟩
    simp only [Entries.has_put, h, Bool.or_true]

theorem keepsMarks_storeCoerced (r : Record) (name : String) (v : Value) :
    KeepsMarks r (r.storeCoerced name v) :=
  across_storeCoerced chained_keepsMarks (r.keepsMarks_remember name)
    (fun _ _ _ => keepsMarks_of_same rfl rfl rfl) v

end Record

namespace Edit

open Record

variable {r s start : Record}

theorem Assigned.keepsMarks (h : Assigned start r) : KeepsMarks start r :=
  h.across acrossWrites_keepsMarks

theorem Assigned.trans {t : Record} (h : Assigned r s) (h' : Assigned s t) : Assigned r t := by
  induction h' with
  | start => exact h
  | assign _ name v ih => exact ih.assign name v

end Edit

end RowMapper
