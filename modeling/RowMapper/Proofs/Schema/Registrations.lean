import Mathlib.Data.List.Dedup
import Mathlib.Data.List.Induction
import RowMapper.Proofs.Schema.DonorFields

/-! # The schemas that a registry hands out

Models are resolved, fields are given to them and the registry is cleared, in any order
and with or without success. What is resolved is always what would be put together
afresh: the model's own declaration, and after it the donors' fields of names that it
does not declare. Which fields these are is read off the fields that were offered since
the registry was last cleared. A name belongs to the donor who offered it first, it
keeps the place that it got then, and its field is the last one that this donor offered.
-/

namespace RowMapper.SchemaRegistry

variable {r : SchemaRegistry} {offers : List DonorField} {new given : DonorField} {name : String}

/-! ## Fields that were offered -/

/-- The donor to whom a name belongs: the one who offered a field of it first. -/
def owner? (offers : List DonorField) (name : String) : Option String :=
  (offers.find? fun offer => offer.field.name = name).map DonorField.donor

/-- The offer that stands for a name: the last one by the donor to whom it belongs. -/
def standing? (offers : List DonorField) (name : String) : Option DonorField :=
  offers.reverse.find? fun offer => offer.field.name = name ∧ owner? offers name = some offer.donor

def offeredNames (offers : List DonorField) : List String :=
  (offers.map fun offer => offer.field.name).reverse.dedup.reverse

/-- The offers that stand, in the order in which their names were first offered. -/
def standing (offers : List DonorField) : List DonorField :=
  (offeredNames offers).filterMap (standing? offers)

theorem mem_offeredNames :
    name ∈ offeredNames offers ↔ ∃ offer ∈ offers, offer.field.name = name := by
  simp [offeredNames]

theorem owner?_isSome_iff : (owner? offers name).isSome = true ↔ name ∈ offeredNames offers := by
  simp [owner?, mem_offeredNames]

theorem owner?_eq_none_iff : owner? offers name = none ↔ name ∉ offeredNames offers := by
  rw [← owner?_isSome_iff, Bool.not_eq_true, Option.isSome_eq_false_iff, Option.isNone_iff_eq_none]

theorem field_of_standing? (h : standing? offers name = some given) : given.field.name = name := by
  have hstands := List.find?_some h
  simp only [decide_eq_true_eq] at hstands
  exact hstands.1

theorem owner?_of_standing? (h : standing? offers name = some given) :
    owner? offers name = some given.donor := by
  have hstands := List.find?_some h
  simp only [decide_eq_true_eq] at hstands
  exact hstands.2

/-- For each name that was offered some offer stands, since the first one is by its owner. -/
theorem standing?_isSome (h : name ∈ offeredNames offers) :
    (standing? offers name).isSome = true := by
  obtain ⟨donor, hdonor⟩ := Option.isSome_iff_exists.1 (owner?_isSome_iff.2 h)
  obtain ⟨first, hfirst, rfl⟩ := Option.map_eq_some_iff.1 hdonor
  have hname := List.find?_some hfirst
  simp only [decide_eq_true_eq] at hname
  rw [standing?, List.find?_isSome]
  exact ⟨first, List.mem_reverse.2 (List.mem_of_find?_eq_some hfirst), by simp [hname, hdonor]⟩

theorem nodup_offeredNames (offers : List DonorField) : (offeredNames offers).Nodup :=
  List.nodup_reverse.2 (List.nodup_dedup _)

theorem names_standing (offers : List DonorField) :
    (standing offers).map (fun given => given.field.name) = offeredNames offers := by
  have hname (name : String) (h : name ∈ offeredNames offers) :
      (standing? offers name).map (fun given => given.field.name) = some name := by
    obtain ⟨given, hgiven⟩ := Option.isSome_iff_exists.1 (standing?_isSome h)
    rw [hgiven, Option.map_some, field_of_standing? hgiven]
  rw [standing, List.map_filterMap, List.filterMap_congr hname, List.filterMap_some]

theorem owner?_of_mem_standing (h : given ∈ standing offers) :
    owner? offers given.field.name = some given.donor := by
  obtain ⟨name, -, hstands⟩ := List.mem_filterMap.1 h
  rw [field_of_standing? hstands]
  exact owner?_of_standing? hstands

/-! ## One more offer -/

theorem offeredNames_concat (offers : List DonorField) (new : DonorField) :
    offeredNames (offers ++ [new]) =
      if new.field.name ∈ offeredNames offers then offeredNames offers
      else offeredNames offers ++ [new.field.name] := by
  have hmem : new.field.name ∈ offeredNames offers ↔
      new.field.name ∈ (offers.map fun offer => offer.field.name).reverse := by
    simp [offeredNames]
  have hcons : (List.map (fun offer : DonorField => offer.field.name) (offers ++ [new])).reverse =
      new.field.name :: (offers.map fun offer => offer.field.name).reverse := by
    simp
  split
  · next h =>
    rw [offeredNames, hcons, List.dedup_cons_of_mem (hmem.1 h), offeredNames]
  · next h =>
    rw [offeredNames, hcons, List.dedup_cons_of_notMem (mt hmem.2 h), List.reverse_cons,
      offeredNames]

/-- A name that was offered belongs to the same donor from then on. -/
theorem owner?_concat (h : name ∈ offeredNames offers) (new : DonorField) :
    owner? (offers ++ [new]) name = owner? offers name := by
  obtain ⟨donor, hdonor⟩ := Option.isSome_iff_exists.1 (owner?_isSome_iff.2 h)
  obtain ⟨first, hfirst, -⟩ := Option.map_eq_some_iff.1 hdonor
  rw [owner?, List.find?_append, hfirst, owner?, hfirst]
  rfl

theorem owner?_concat_self (h : new.field.name ∉ offeredNames offers) :
    owner? (offers ++ [new]) new.field.name = some new.donor := by
  have hnone := Option.map_eq_none_iff.1 (owner?_eq_none_iff.2 h)
  rw [owner?, List.find?_append, hnone]
  simp

/-- What stands for the name of a new offer, if it is by the donor to whom the name belongs. -/
theorem standing?_concat_self (h : owner? (offers ++ [new]) new.field.name = some new.donor) :
    standing? (offers ++ [new]) new.field.name = some new := by
  simp [standing?, h]

/-- A new offer by another donor, or of another name, changes nothing for a name. -/
theorem standing?_concat_of_ne (hname : name ∈ offeredNames offers)
    (h : new.field.name ≠ name ∨ owner? offers name ≠ some new.donor) :
    standing? (offers ++ [new]) name = standing? offers name := by
  have hrefused : ¬ (new.field.name = name ∧ owner? offers name = some new.donor) := by
    rintro ⟨hsame, howner⟩
    exact h.elim (fun hne => hne hsame) fun hne => hne howner
  rw [standing?, owner?_concat hname, List.reverse_concat,
    List.find?_cons_of_neg (by simpa using hrefused), standing?]

/-- The first offer of a name stands after all others. -/
theorem standing_concat_first (h : new.field.name ∉ offeredNames offers) :
    standing (offers ++ [new]) = standing offers ++ [new] := by
  have hothers :
      (offeredNames offers).filterMap (standing? (offers ++ [new])) = standing offers := by
    refine List.filterMap_congr fun name hname => standing?_concat_of_ne hname (.inl ?_)
    rintro rfl
    exact h hname
  rw [standing, offeredNames_concat, if_neg h, List.filterMap_append, hothers]
  simp [standing?_concat_self (owner?_concat_self h)]

/-- An offer of a name that belongs to another donor is of no consequence. -/
theorem standing_concat_refused {donor : String} (h : owner? offers new.field.name = some donor)
    (hne : donor ≠ new.donor) : standing (offers ++ [new]) = standing offers := by
  have hmem : new.field.name ∈ offeredNames offers := owner?_isSome_iff.1 (by rw [h]; rfl)
  rw [standing, offeredNames_concat, if_pos hmem]
  refine List.filterMap_congr fun name hname => standing?_concat_of_ne hname ?_
  by_cases hsame : new.field.name = name
  · subst hsame
    exact .inr (by simpa [h] using hne)
  · exact .inl hsame

/-- A further offer by the donor to whom the name belongs stands in the place of the former one. -/
theorem standing_concat_renewed (h : owner? offers new.field.name = some new.donor) :
    standing (offers ++ [new]) = (standing offers).map fun old =>
      if old.field.name = new.field.name then { old with field := new.field } else old := by
  have hmem : new.field.name ∈ offeredNames offers := owner?_isSome_iff.1 (by rw [h]; rfl)
  rw [standing, offeredNames_concat, if_pos hmem, standing, List.map_filterMap]
  refine List.filterMap_congr fun name hname => ?_
  obtain ⟨old, hold⟩ := Option.isSome_iff_exists.1 (standing?_isSome hname)
  have holdname := field_of_standing? hold
  by_cases hsame : new.field.name = name
  · subst hsame
    have howner := owner?_of_standing? hold
    rw [h, Option.some.injEq] at howner
    rw [standing?_concat_self (by rw [owner?_concat hmem, h]), hold, Option.map_some,
      if_pos holdname, ← howner]
  · rw [standing?_concat_of_ne hname (.inl hsame), hold, Option.map_some,
      if_neg (by rw [holdname]; exact fun heq => hsame heq.symm)]

/-! ## Putting schemas together afresh -/

/-- The donors' fields that a schema does not declare itself. -/
def additions (s : Schema) (fields : List DonorField) : List Field :=
  (fields.map DonorField.field).filter fun field => (s.field field.name).isNone

/-- Of fields with different names each is added that the schema does not declare itself. -/
theorem foldl_addDonorField_eq (s : Schema) {fields : List DonorField}
    (hnodup : (fields.map fun given => given.field.name).Nodup) :
    fields.foldl addDonorField s = (additions s fields).foldl Schema.declare s := by
  induction fields generalizing s with
  | nil => rfl
  | cons given rest ih =>
    rw [List.map_cons, List.nodup_cons] at hnodup
    rw [List.foldl_cons, addDonorField]
    cases hfield : s.field given.field.name with
    | some known =>
      have hskipped : additions s (given :: rest) = additions s rest := by
        simp [additions, hfield]
      rw [Option.isSome_some, if_pos rfl, ih s hnodup.2, hskipped]
    | none =>
      have hrest : additions (s.declare given.field) rest = additions s rest := by
        refine List.filter_congr fun field hmem => ?_
        obtain ⟨other, hother, rfl⟩ := List.mem_map.1 hmem
        have hne : given.field.name ≠ other.field.name := fun heq =>
          hnodup.1 (List.mem_map.2 ⟨other, hother, heq.symm⟩)
        rw [Schema.field_declare_of_ne s given.field hne]
      have hadded : additions s (given :: rest) = given.field :: additions s rest := by
        simp [additions, hfield]
      rw [Option.isSome_none, if_neg Bool.false_ne_true, ih _ hnodup.2, hrest, hadded,
        List.foldl_cons]

/-- Every schema that was put together is what would be put together now. -/
def UpToDate (r : SchemaRegistry) : Prop :=
  ∀ entry ∈ r.assembled, entry.2 = r.assemble (r.declared entry.1)

theorem UpToDate.resolve_eq (h : r.UpToDate) (place : Nat) :
    (r.resolve place).1 = r.assemble (r.declared place) := by
  unfold resolve
  split
  · next s hs => exact h _ (mem_assembled hs)
  · rfl

/-! ## Runs -/

inductive Operation where
  | resolve (place : Nat)
  | give (model donor : String) (field : Field)
  | clear

def after (r : SchemaRegistry) : Operation → SchemaRegistry
  | .resolve place => (r.resolve place).2
  | .give model donor field =>
    match r.giveField model donor field with
    | .ok r' => r'
    | .error _ => r
  | .clear => r.clear

def afterAll (declared : Nat → Schema) (ops : List Operation) : SchemaRegistry :=
  ops.foldl after { declared }

def offersAfter (model : String) (offers : List DonorField) : Operation → List DonorField
  | .resolve _ => offers
  | .give other donor field => if other = model then offers ++ [⟨donor, field⟩] else offers
  | .clear => []

/-- The fields that were offered to a model since the registry was last cleared. -/
def offered (model : String) (ops : List Operation) : List DonorField :=
  ops.foldl (offersAfter model) []

section

variable {r' : SchemaRegistry} {model donor : String} {field : Field} {e : Error}

theorem after_give_of_ok (h : r.giveField model donor field = .ok r') :
    r.after (.give model donor field) = r' := by
  rw [after, h]

theorem after_give_of_error (h : r.giveField model donor field = .error e) :
    r.after (.give model donor field) = r := by
  rw [after, h]

end

theorem declared_after (r : SchemaRegistry) (op : Operation) :
    (r.after op).declared = r.declared := by
  cases op with
  | resolve place => exact declared_resolve r place
  | give model donor field =>
    cases h : r.giveField model donor field with
    | ok r' => rw [after_give_of_ok h, declared_giveField h]
    | error e => rw [after_give_of_error h]
  | clear => rfl

/-- Whether a field is accepted is decided by the donor to whom its name belongs. -/
theorem giveField_of_standing {model donor : String} {field : Field}
    (h : r.extraFields model = standing offers) :
    r.giveField model donor field = match owner? offers field.name with
      | some first => if first ≠ donor then .error (.donorConflict model field.name first donor)
        else .ok (giveField.put r model donor field (standing offers))
      | none => .ok (giveField.put r model donor field (standing offers)) := by
  unfold giveField
  dsimp only
  rw [h]
  cases hfind : (standing offers).find? fun old => old.field.name = field.name with
  | some old =>
    have hname := List.find?_some hfind
    simp only [decide_eq_true_eq] at hname
    have howner := owner?_of_mem_standing (List.mem_of_find?_eq_some hfind)
    rw [hname] at howner
    rw [howner]
  | none =>
    have hfree : field.name ∉ offeredNames offers := by
      rw [← names_standing]
      simpa using hfind
    rw [owner?_eq_none_iff.2 hfree]

/-- The step for a field that is given: what was accepted is what stands of the offers. -/
theorem extraFields_give {model : String} (donor : String) (field : Field)
    (h : r.extraFields model = standing offers) :
    (r.after (.give model donor field)).extraFields model =
      standing (offers ++ [⟨donor, field⟩]) := by
  unfold after
  dsimp only
  rw [giveField_of_standing h]
  cases howner : owner? offers field.name with
  | none =>
    have hfree := owner?_eq_none_iff.1 howner
    have hnone : (standing offers).any (fun old => old.field.name = field.name) = false := by
      rw [← names_standing] at hfree
      simpa using hfree
    dsimp only
    rw [extraFields_put_self, putDonorField, hnone, standing_concat_first hfree]
    rfl
  | some first =>
    by_cases hsame : first = donor
    · subst hsame
      have hany : (standing offers).any (fun old => old.field.name = field.name) = true := by
        have hmem : field.name ∈ offeredNames offers := owner?_isSome_iff.1 (by rw [howner]; rfl)
        rw [← names_standing] at hmem
        simpa using hmem
      simp only [ne_eq, not_true_eq_false, if_false]
      have hrenewed := @standing_concat_renewed offers ⟨first, field⟩ howner
      rw [extraFields_put_self, putDonorField, hany, hrenewed]
      rfl
    · have hrefused := @standing_concat_refused offers ⟨donor, field⟩ first howner hsame
      simp only [ne_eq, hsame, not_false_eq_true, if_true]
      rw [h, hrefused]

/-- The step: a model has the fields that stand of those that it was offered. -/
theorem extraFields_after {model : String} (h : r.extraFields model = standing offers)
    (op : Operation) : (r.after op).extraFields model = standing (offersAfter model offers op) := by
  cases op with
  | resolve place =>
    rw [extraFields, after, extra_resolve]
    exact h
  | give other donor field =>
    by_cases hother : other = model
    · subst hother
      rw [offersAfter, if_pos rfl]
      exact extraFields_give donor field h
    · rw [offersAfter, if_neg hother, ← h]
      cases hgive : r.giveField other donor field with
      | ok r' =>
        rw [after_give_of_ok hgive, giveField_eq_ok hgive,
          extraFields_put_of_ne r donor field _ hother]
      | error e => rw [after_give_of_error hgive]
  | clear => rfl

/-- The step: no operation leaves a schema that would now be put together otherwise. -/
theorem UpToDate.after (h : r.UpToDate) (op : Operation) : (r.after op).UpToDate := by
  intro entry hentry
  rw [declared_after]
  cases op with
  | resolve place =>
    have hsame (s : Schema) : (r.resolve place).2.assemble s = r.assemble s := by
      rw [assemble, extraFields, extra_resolve]
      rfl
    rw [SchemaRegistry.after, hsame]
    rcases assembled_resolve hentry with hold | rfl
    · exact h entry hold
    · rfl
  | give model donor field =>
    cases hgive : r.giveField model donor field with
    | ok r' =>
      rw [after_give_of_ok hgive, giveField_eq_ok hgive] at hentry ⊢
      obtain ⟨hold, hkept⟩ := List.mem_filter.1 hentry
      have hentry' := h entry hold
      -- a schema that is left has another name than the model, and its donors' fields are the same
      have hname : model ≠ (r.declared entry.1).name := by
        rw [hentry', name_assemble] at hkept
        exact fun heq => of_decide_eq_true hkept heq.symm
      rw [assemble, extraFields_put_of_ne r donor field _ hname]
      exact hentry'
    | error e =>
      rw [after_give_of_error hgive] at hentry ⊢
      exact h entry hentry
  | clear => cases hentry

/-- The run: after any operations all is up to date, and each model has the fields that stand. -/
theorem afterAll_upToDate (declared : Nat → Schema) (ops : List Operation) :
    (afterAll declared ops).UpToDate ∧ (afterAll declared ops).declared = declared ∧
      ∀ model, (afterAll declared ops).extraFields model = standing (offered model ops) := by
  induction ops using List.reverseRecOn with
  | nil => exact ⟨fun _ h => (List.not_mem_nil h).elim, rfl, fun _ => rfl⟩
  | append_singleton ops op ih =>
    obtain ⟨hcurrent, hdeclared, hextra⟩ := ih
    rw [afterAll, List.foldl_concat]
    refine ⟨hcurrent.after op, (declared_after _ op).trans hdeclared, fun model => ?_⟩
    rw [offered, List.foldl_concat]
    exact extraFields_after (hextra model) op

/-- After any operations a model is resolved to its own declaration with the donors' fields that
this does not have, in order. The donors' fields are those that stand of the fields offered since
the registry was last cleared; their names are different, and each belongs to its donor. A field is
refused just when its name belongs to another donor, and then it is as if it had not been
offered. -/
theorem resolve_afterAll (declared : Nat → Schema) (ops : List Operation) :
    let r := afterAll declared ops
    (∀ place, (r.resolve place).1 =
      (additions (declared place) (r.extraFields (declared place).name)).foldl Schema.declare
        (declared place)) ∧
    (∀ model, r.extraFields model = standing (offered model ops) ∧
      ((r.extraFields model).map fun given => given.field.name).Nodup ∧
      ∀ given ∈ r.extraFields model,
        owner? (offered model ops) given.field.name = some given.donor) ∧
    ∀ model donor field,
      (∀ e, r.giveField model donor field = .error e ↔
        ∃ first, owner? (offered model ops) field.name = some first ∧ first ≠ donor ∧
          e = .donorConflict model field.name first donor) ∧
      ∀ e, r.giveField model donor field = .error e → ∀ more,
        afterAll declared (ops ++ .give model donor field :: more) =
          afterAll declared (ops ++ more) := by
  intro r
  obtain ⟨hcurrent, hdeclared, hextra⟩ := afterAll_upToDate declared ops
  have hnodup (model : String) :
      ((r.extraFields model).map fun given => given.field.name).Nodup := by
    rw [hextra, names_standing]
    exact nodup_offeredNames _
  refine ⟨fun place => ?_, fun model => ⟨hextra model, hnodup model, fun given hgiven => ?_⟩,
    fun model donor field => ⟨fun e => ?_, fun e hrefused more => ?_⟩⟩
  · rw [hcurrent.resolve_eq, hdeclared, assemble, foldl_addDonorField_eq _ (hnodup _)]
  · rw [hextra] at hgiven
    exact owner?_of_mem_standing hgiven
  · rw [giveField_of_standing (hextra model)]
    cases howner : owner? (offered model ops) field.name with
    | none => simp
    | some first =>
      by_cases hsame : first = donor
      · simp [hsame]
      · simp [hsame, eq_comm (a := e)]
  · have hkept : r.after (.give model donor field) = r := after_give_of_error hrefused
    rw [afterAll, List.foldl_append, List.foldl_cons, afterAll, List.foldl_append]
    exact congrArg (fun s => more.foldl after s) hkept

end RowMapper.SchemaRegistry
