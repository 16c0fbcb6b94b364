import RowMapper.Proofs.Record.Changes
import RowMapper.Proofs.Schema.Declarations
import RowMapper.Proofs.Schema.Registrations

/-! # What donors leave of a model

The fields that donors gave to a model come after its own declaration. A column or a relation
of the model is a field, so that a donor's field of its name is passed over, and the name is
served and read as if nothing had been given. A computed value is no field: unless the model has
one of that name besides, the name is free for donors, and what they give takes its place.
-/

namespace RowMapper

namespace Record

/-! ## Fields of loaded rows -/

theorem value?_ofRow (s : Schema) (row : Row) (filter : ImportFilter) (name : String) :
    (ofRow s row filter).value? name = (Entries.ofPairs row).get? name := by
  induction row using List.reverseRecOn with
  | nil => rfl
  | append_singleton row entry ih =>
    obtain ⟨column, v⟩ := entry
    have hloaded := loaded_ofRow s row filter
    have htaken : ofRow s (row ++ [(column, v)]) filter = (ofRow s row filter).takeIn column v := by
      rw [ofRow, List.foldl_concat]
      rfl
    have hput : Entries.ofPairs (row ++ [(column, v)]) =
        (Entries.ofPairs row).put column v := by
      rw [Entries.ofPairs, List.foldl_concat]
      rfl
    rw [htaken, hput, takeIn, hloaded.schema]
    by_cases hname : column = name
    · subst hname
      cases hcolumn : s.hasColumn column <;> simp [value?, hcolumn, hloaded.data column]
    · rw [Entries.get?_put_of_ne _ _ hname, ← ih]
      split <;> simp [value?, Entries.get?_put_of_ne _ _ hname]

def readRow (s : Schema) (row : Row) (name : String) : FieldValue Record :=
  match s.access name with
  | some .column | none => .ofOption ((Entries.ofPairs row).get? name)
  | some .computed => match s.computed.get? name with
    | some compute => .ofValue (compute (Entries.ofPairs row).get?)
    | none => .null
  | some (.relation _) => .null

theorem fieldValue_ofRow (s : Schema) (row : Row) (filter : ImportFilter) (name : String) :
    (ofRow s row filter).fieldValue name = .ok (readRow s row name) := by
  have hloaded := loaded_ofRow s row filter
  have hvalues : (ofRow s row filter).value? = (Entries.ofPairs row).get? :=
    funext (value?_ofRow s row filter)
  have hvalue := value?_ofRow s row filter name
  obtain ⟨data, extra, initial, hrow⟩ := changesRow_ofRow s row filter
  have hrelated : (ofRow s row filter).related? name = none := by rw [hrow]; rfl
  have hpending : (ofRow s row filter).pending.get? name = none := by rw [hrow]; rfl
  rw [fieldValue, ensureLive_of_live hloaded.voided, hloaded.schema, hvalues, readRow]
  cases haccess : s.access name with
  | none =>
    have hdata := hloaded.data name (by simp [Schema.hasColumn, haccess])
    rw [value?, hdata, Option.none_or] at hvalue
    rw [hvalue]
    rfl
  | some access => cases access with
    | column =>
      have hextra := hloaded.extra name (by simp [Schema.hasColumn, haccess])
      rw [value?, hextra, Option.or_none] at hvalue
      rw [hvalue]
      rfl
    | computed => cases s.computed.get? name <;> rfl
    | relation _ =>
      rw [hrelated, hpending]
      rfl

end Record

namespace Schema

variable {s t : Schema} {name : String}

/-- Two schemas serve a name alike: in the same way, and with either of them every record and every
row reads the same under the name. -/
structure ServesAlike (s t : Schema) (name : String) : Prop where
  access : t.access name = s.access name
  read : ∀ r : Record, ({ r with schema := t } : Record).fieldValue name =
    ({ r with schema := s } : Record).fieldValue name
  loaded : ∀ row filter, (Record.ofRow t row filter).fieldValue name =
    (Record.ofRow s row filter).fieldValue name

/-- With the same computed values it is enough that the name is served in the same way. -/
theorem servesAlike_iff (hname : t.name = s.name) (hcomputed : t.computed = s.computed) :
    s.ServesAlike t name ↔ t.access name = s.access name := by
  refine ⟨ServesAlike.access, fun haccess => ⟨haccess, fun r => ?_, fun row filter => ?_⟩⟩
  · simp only [Record.fieldValue, Record.ensureLive, Record.model, hname, haccess, hcomputed]
    rfl
  · rw [Record.fieldValue_ofRow, Record.fieldValue_ofRow, Record.readRow, Record.readRow, haccess,
      hcomputed]

/-! ## Fields declared one after another -/

variable {fields : List Field} {f : Field}

theorem name_foldl_declare (fields : List Field) (s : Schema) :
    (fields.foldl declare s).name = s.name := by
  induction fields generalizing s with
  | nil => rfl
  | cons f fields ih => exact ih (s.declare f)

theorem computed_foldl_declare (fields : List Field) (s : Schema) :
    (fields.foldl declare s).computed = s.computed := by
  induction fields generalizing s with
  | nil => rfl
  | cons f fields ih => exact ih (s.declare f)

theorem access_foldl_declare_of_ne (h : ∀ f ∈ fields, f.name ≠ name) :
    (fields.foldl declare s).access name = s.access name := by
  induction fields generalizing s with
  | nil => rfl
  | cons f fields ih =>
    rw [List.foldl_cons, ih fun g hg => h g (List.mem_cons_of_mem f hg),
      access_declare_of_ne s f (h f List.mem_cons_self)]

/-- Of fields with different names each is served as it says. -/
theorem access_foldl_declare_of_mem (hnodup : (fields.map Field.name).Nodup) (h : f ∈ fields) :
    (fields.foldl declare s).access f.name = some f.access := by
  induction fields generalizing s with
  | nil => cases h
  | cons first fields ih =>
    rw [List.map_cons, List.nodup_cons] at hnodup
    rcases List.mem_cons.1 h with rfl | h
    · have hothers : ∀ g ∈ fields, g.name ≠ f.name := fun g hg heq =>
        hnodup.1 (List.mem_map.2 ⟨g, hg, heq⟩)
      rw [List.foldl_cons, access_foldl_declare_of_ne hothers, access_declare_self]
    · exact ih hnodup.2 h

end Schema

namespace SchemaRegistry

open Schema

variable {s : Schema} {given : DonorField} {fields : List DonorField} {name : String}

theorem mem_additions {field : Field} : field ∈ additions s fields ↔
    (∃ given ∈ fields, given.field = field) ∧ s.field field.name = none := by
  simp [additions]

theorem nodup_additions (hnodup : (fields.map fun given => given.field.name).Nodup) :
    ((additions s fields).map Field.name).Nodup := by
  rw [← Function.comp_def Field.name DonorField.field, ← List.map_map] at hnodup
  exact hnodup.sublist (List.filter_sublist.map _)

/-- A donor's field takes the place of a computed value. -/
def Replaces (s : Schema) (fields : List DonorField) (name : String) : Prop :=
  s.access name = some .computed ∧ s.field name = none ∧ ∃ given ∈ fields, given.field.name = name

/-- Whatever was given to a model, it serves each name of its own as if nothing had been given, unless
the name is that of a computed value, no field of the model has it and a donor gave one of that
name. Every given field whose name no field of the model has is served as it says. -/
theorem servesAlike_resolve_iff (declared : Nat → Schema) (ops : List Operation) (place : Nat)
    (hbuilt : (declared place).Built) :
    let own := declared place
    let r := afterAll declared ops
    (∀ name, own.access name ≠ none → (own.ServesAlike (r.resolve place).1 name ↔
      ¬ Replaces own (r.extraFields own.name) name)) ∧
    ∀ given ∈ r.extraFields own.name, own.field given.field.name = none →
      (r.resolve place).1.access given.field.name = some given.field.access := by
  intro own r
  obtain ⟨hcurrent, hdeclared, hextra⟩ := afterAll_upToDate declared ops
  have hnodup : ((r.extraFields own.name).map fun given => given.field.name).Nodup := by
    rw [hextra, names_standing]
    exact nodup_offeredNames _
  have hresolved : (r.resolve place).1 =
      (additions own (r.extraFields own.name)).foldl Schema.declare own := by
    rw [hcurrent.resolve_eq, hdeclared, assemble, foldl_addDonorField_eq _ hnodup]
  have hgiven (given : DonorField) (hmem : given ∈ r.extraFields own.name)
      (hfree : own.field given.field.name = none) :
      (r.resolve place).1.access given.field.name = some given.field.access := by
    rw [hresolved]
    exact access_foldl_declare_of_mem (nodup_additions hnodup)
      (mem_additions.2 ⟨⟨given, hmem, rfl⟩, hfree⟩)
  refine ⟨fun name hown => ?_, hgiven⟩
  rw [servesAlike_iff (hresolved ▸ name_foldl_declare _ own)
    (hresolved ▸ computed_foldl_declare _ own)]
  constructor
  · rintro halike ⟨hcomputed, hfree, given, hmem, rfl⟩
    rw [hgiven given hmem hfree, hcomputed] at halike
    exact given.field.access_ne_computed (Option.some.inj halike)
  · intro hkept
    rw [hresolved]
    refine access_foldl_declare_of_ne fun field hmem hname => ?_
    obtain ⟨⟨given, hoffered, rfl⟩, hfree⟩ := mem_additions.1 hmem
    rw [hname] at hfree
    rcases hbuilt.coherent.served name with hcomputed | hfield
    · exact hkept ⟨hcomputed, hfree, given, hoffered, hname⟩
    · exact hown (hfield.trans (congrArg _ hfree))

def tagSample : Schema :=
  ((Schema.new "Tag" "tags").withColumn "label" (.varchar 64)).withComputed "shout" fun values =>
    .text (((values "label").map Value.display).getD "")

theorem built_tagSample : tagSample.Built :=
  .withComputed (.declare (.new _ _) _) _ _

def givenColumn (name : String) : Field := { name, type := .text }

/-- A column of a new name leaves the model's own names as they are. -/
theorem rankedTag_servesAlike :
    let r := afterAll (fun _ => tagSample) [.give "Tag" "plugin" (givenColumn "rank")]
    (tagSample.Built ∧ tagSample.access "label" ≠ none ∧ tagSample.access "shout" ≠ none) ∧
      tagSample.ServesAlike (r.resolve 0).1 "label" ∧
      tagSample.ServesAlike (r.resolve 0).1 "shout" ∧
      (r.resolve 0).1.access "rank" = some .column := by
  intro r
  obtain ⟨hown, hgiven⟩ := servesAlike_resolve_iff (fun _ => tagSample)
    [.give "Tag" "plugin" (givenColumn "rank")] 0 built_tagSample
  have hfields : r.extraFields "Tag" = [⟨"plugin", givenColumn "rank"⟩] := rfl
  have hkept (name : String) (hname : "rank" ≠ name) :
      ¬ Replaces tagSample (r.extraFields "Tag") name := by
    rintro ⟨-, -, given, hmem, hsame⟩
    rw [hfields, List.mem_singleton] at hmem
    rw [hmem] at hsame
    exact hname hsame
  have hserved : tagSample.access "label" ≠ none ∧ tagSample.access "shout" ≠ none := by decide
  exact ⟨⟨built_tagSample, hserved⟩, (hown "label" hserved.1).2 (hkept "label" (by decide)),
    (hown "shout" hserved.2).2 (hkept "shout" (by decide)),
    hgiven ⟨"plugin", givenColumn "rank"⟩ (hfields ▸ List.mem_singleton_self _) rfl⟩

/-- A column by the name of the computed value is read in its place: the name is served as a column
from then on, and a loaded row has no value for it. -/
theorem shoutingTag_replaced :
    let r := afterAll (fun _ => tagSample) [.give "Tag" "plugin" (givenColumn "shout")]
    let row : Row := [("id", .int64 1), ("label", .text "red")]
    tagSample.Built ∧ tagSample.access "shout" = some .computed ∧
      ¬ tagSample.ServesAlike (r.resolve 0).1 "shout" ∧
      (r.resolve 0).1.access "shout" = some .column ∧
      (Record.ofRow tagSample row).fieldValue "shout" = .ok (.scalar (.text "red")) ∧
      (Record.ofRow (r.resolve 0).1 row).fieldValue "shout" = .ok .null := by
  intro r row
  have hcolumn : (r.resolve 0).1.access "shout" = some .column := rfl
  refine ⟨built_tagSample, rfl, fun halike => ?_, hcolumn, rfl, rfl⟩
  have haccess := halike.access
  rw [hcolumn] at haccess
  exact absurd haccess (by decide)

end SchemaRegistry

end RowMapper
