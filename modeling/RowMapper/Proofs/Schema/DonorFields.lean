import RowMapper.Schema.Registry

/-! # Fields that were given stay

Once a donor gave a field to a model, every schema of the model that the registry hands
out declares it: one that is put together later takes in all donors' fields, and those
put together before were dropped. Resolving models and giving further fields keeps that.
-/

namespace RowMapper

def Schema.Declares (s : Schema) (name : String) : Prop := (s.field name).isSome = true

instance (s : Schema) (name : String) : Decidable (s.Declares name) :=
  inferInstanceAs (Decidable ((s.field name).isSome = true))

namespace SchemaRegistry

variable {r r' : SchemaRegistry} {s : Schema} {model donor name : String} {given : DonorField}

/-! ## Putting schemas together -/

theorem name_addDonorField (s : Schema) (given : DonorField) :
    (addDonorField s given).name = s.name := by
  unfold addDonorField
  split <;> rfl

theorem declares_addDonorField_self (s : Schema) (given : DonorField) :
    (addDonorField s given).Declares given.field.name := by
  unfold addDonorField
  split
  · assumption
  · simp [Schema.Declares]

theorem declares_addDonorField (h : s.Declares name) (given : DonorField) :
    (addDonorField s given).Declares name := by
  unfold addDonorField
  split
  · exact h
  · by_cases hname : given.field.name = name
    · subst hname
      simp [Schema.Declares]
    · rwa [Schema.Declares, Schema.field_declare_of_ne _ _ hname]

theorem name_foldl_addDonorField (fields : List DonorField) (s : Schema) :
    (fields.foldl addDonorField s).name = s.name := by
  induction fields generalizing s with
  | nil => rfl
  | cons given fields ih => rw [List.foldl_cons, ih, name_addDonorField]

theorem declares_foldl_addDonorField (fields : List DonorField) (h : s.Declares name) :
    (fields.foldl addDonorField s).Declares name := by
  induction fields generalizing s with
  | nil => exact h
  | cons given fields ih => exact ih (declares_addDonorField h given)

theorem declares_foldl_of_mem {fields : List DonorField} (h : given ∈ fields) (s : Schema) :
    (fields.foldl addDonorField s).Declares given.field.name := by
  induction fields generalizing s with
  | nil => cases h
  | cons first fields ih =>
    rcases List.mem_cons.1 h with rfl | h
    · exact declares_foldl_addDonorField fields (declares_addDonorField_self s given)
    · exact ih h (addDonorField s first)

theorem name_assemble (r : SchemaRegistry) (s : Schema) : (r.assemble s).name = s.name :=
  name_foldl_addDonorField _ s

/-! ## The registry -/

def Named (r : SchemaRegistry) : Prop :=
  ∀ entry ∈ r.assembled, entry.2.name = (r.declared entry.1).name

/-- A field was given to a model, and no schema of the model was put together without it. -/
structure Gives (r : SchemaRegistry) (model name : String) : Prop where
  given : ∃ given ∈ r.extraFields model, given.field.name = name
  assembled : ∀ entry ∈ r.assembled, entry.2.name = model → entry.2.Declares name

theorem mem_assembled {key : Nat} (h : r.assembled? key = some s) : (key, s) ∈ r.assembled := by
  obtain ⟨before, after, hentries, -⟩ := List.lookup_eq_some_iff.1 h
  simp [hentries]

theorem declared_resolve (r : SchemaRegistry) (key : Nat) :
    (r.resolve key).2.declared = r.declared := by
  unfold resolve
  split <;> rfl

theorem extra_resolve (r : SchemaRegistry) (key : Nat) : (r.resolve key).2.extra = r.extra := by
  unfold resolve
  split <;> rfl

/-- What is put together after a look-up was put together before, or is the model's own declaration
with the donors' fields. -/
theorem assembled_resolve {key : Nat} {entry : Nat × Schema}
    (h : entry ∈ (r.resolve key).2.assembled) :
    entry ∈ r.assembled ∨ entry = (key, r.assemble (r.declared key)) := by
  unfold resolve at h
  split at h
  · exact .inl h
  · exact (List.mem_cons.1 h).symm

theorem Named.resolve (h : r.Named) (key : Nat) : (r.resolve key).2.Named := by
  intro entry hentry
  rw [declared_resolve]
  rcases assembled_resolve hentry with hold | rfl
  · exact h entry hold
  · exact name_assemble r _

theorem Gives.resolve (h : r.Gives model name) (key : Nat) :
    (r.resolve key).2.Gives model name where
  given := by
    rw [extraFields, extra_resolve]
    exact h.given
  assembled := by
    intro entry hentry hname
    rcases assembled_resolve hentry with hold | rfl
    · exact h.assembled entry hold hname
    · obtain ⟨given, hgiven, rfl⟩ := h.given
      rw [name_assemble] at hname
      exact declares_foldl_of_mem (hname ▸ hgiven) _

theorem Named.name_resolve (h : r.Named) {key : Nat} (hname : (r.declared key).name = model) :
    (r.resolve key).1.name = model := by
  rw [h.resolve key _ (mem_assembled (r.assembled?_resolve key)), declared_resolve, hname]

theorem Gives.declares_resolve (h : r.Gives model name) (hnamed : r.Named) {key : Nat}
    (hname : (r.declared key).name = model) : (r.resolve key).1.Declares name :=
  (h.resolve key).assembled _ (mem_assembled (r.assembled?_resolve key)) (hnamed.name_resolve hname)

/-! ## Giving fields -/

theorem giveField_eq_ok {field : Field} (h : r.giveField model donor field = .ok r') :
    r' = giveField.put r model donor field (r.extraFields model) := by
  unfold giveField at h
  dsimp only at h
  split at h
  · split at h
    · cases h
    · cases h
      rfl
  · cases h
    rfl

theorem declared_giveField {field : Field} (h : r.giveField model donor field = .ok r') :
    r'.declared = r.declared := by
  rw [giveField_eq_ok h]
  rfl

theorem Named.giveField {field : Field} (hr : r.Named)
    (h : r.giveField model donor field = .ok r') : r'.Named := by
  rw [giveField_eq_ok h]
  exact fun entry hentry => hr entry (List.mem_filter.1 hentry).1

theorem exists_mem_putDonorField {fields : List DonorField} (h : given ∈ fields)
    (new : DonorField) : ∃ kept ∈ putDonorField fields new, kept.field.name = given.field.name := by
  unfold putDonorField
  split
  · by_cases hname : given.field.name = new.field.name
    · refine ⟨{ given with field := new.field }, List.mem_map.2 ⟨given, h, ?_⟩, hname.symm⟩
      rw [if_pos hname]
    · refine ⟨given, List.mem_map.2 ⟨given, h, ?_⟩, rfl⟩
      rw [if_neg hname]
  · exact ⟨given, List.mem_append_left _ h, rfl⟩

theorem exists_mem_putDonorField_self (fields : List DonorField) (new : DonorField) :
    ∃ kept ∈ putDonorField fields new, kept.field.name = new.field.name := by
  unfold putDonorField
  split
  · next h =>
    obtain ⟨given, hgiven, hname⟩ := List.any_eq_true.1 h
    have hname : given.field.name = new.field.name := of_decide_eq_true hname
    refine ⟨{ given with field := new.field }, List.mem_map.2 ⟨given, hgiven, ?_⟩, rfl⟩
    rw [if_pos hname]
  · exact ⟨new, List.mem_append_right _ List.mem_cons_self, rfl⟩

theorem extraFields_put_self (r : SchemaRegistry) (model donor : String) (field : Field)
    (given : List DonorField) :
    (giveField.put r model donor field given).extraFields model =
      putDonorField given ⟨donor, field⟩ := by
  simp [extraFields, giveField.put]

theorem extraFields_put_of_ne (r : SchemaRegistry) {model other : String} (donor : String)
    (field : Field) (given : List DonorField) (h : model ≠ other) :
    (giveField.put r model donor field given).extraFields other = r.extraFields other := by
  simp [extraFields, giveField.put, Entries.get?_put_of_ne _ _ h]

/-- A field that was given is there, and no schema put together before is left. -/
theorem gives_of_giveField {field : Field} (h : r.giveField model donor field = .ok r') :
    r'.Gives model field.name := by
  rw [giveField_eq_ok h]
  constructor
  · rw [extraFields_put_self]
    exact exists_mem_putDonorField_self _ ⟨donor, field⟩
  · intro entry hentry hname
    exact absurd hname (of_decide_eq_true (List.mem_filter.1 hentry).2)

/-- Further fields, of whatever model, leave it there. -/
theorem Gives.giveField {other : String} {field : Field} (hr : r.Gives model name)
    (h : r.giveField other donor field = .ok r') : r'.Gives model name := by
  rw [giveField_eq_ok h]
  constructor
  · by_cases hother : other = model
    · subst hother
      obtain ⟨given, hgiven, rfl⟩ := hr.given
      rw [extraFields_put_self]
      exact exists_mem_putDonorField hgiven ⟨donor, field⟩
    · rw [extraFields_put_of_ne r donor field _ hother]
      exact hr.given
  · exact fun entry hentry => hr.assembled entry (List.mem_filter.1 hentry).1

end SchemaRegistry

end RowMapper
