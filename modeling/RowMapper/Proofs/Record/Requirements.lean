import RowMapper.Proofs.Record.ValueStores

/-! # What validation asks for

Validation asks for a value of each column that takes no nulls, has no default and is not
the key. A record without one is invalid, unless a validator takes back what was found.
An insert writes the columns that have a value and leaves out those that are null, an
update writes every column that changed, null or not.
-/

namespace RowMapper

open Run

namespace Schema

variable {s : Schema}

/-- Each field is declared once, however declarations replace each other. -/
theorem Built.nodup_fields (h : s.Built) : s.fields.names.Nodup := by
  induction h with
  | new name table =>
    have hempty : (Entries.names ([] : Entries Field)).Nodup := List.nodup_nil
    exact Entries.nodup_put hempty _ _
  | @keyedBy s _ column type ih =>
    unfold Schema.keyedBy
    dsimp only
    split
    · exact Entries.nodup_put ih _ _
    · have hrest : (s.fields.erase s.primaryKey).names.Nodup :=
        ih.sublist (List.filter_sublist.map _)
      exact Entries.nodup_put hrest _ _
  | onConnection _ name ih => exact ih
  | declare _ f ih => exact Entries.nodup_put ih _ _
  | withComputed _ name compute ih => exact ih
  | withValidator _ check ih => exact ih

/-- No validator takes back all that was found before it. -/
def KeepsErrors (s : Schema) : Prop :=
  ∀ check ∈ s.validators, ∀ values errors, errors ≠ [] → check values errors ≠ []

end Schema

namespace Record

variable {schema : Schema} {r s start : Record} {c : Field} {name : String} {v : Value}

/-! ## Each column once -/

/-- No column has two values. -/
def Distinct (r : Record) : Prop := r.data.names.Nodup

theorem Distinct.of_same (h : Distinct r) (hdata : s.data = r.data) : Distinct s := by
  rw [Distinct, hdata]
  exact h

theorem Distinct.putData (h : Distinct r) (name : String) (v : Value) :
    Distinct (r.putData name v) := Entries.nodup_put h name v

theorem acrossWrites_distinct : AcrossWrites fun r s => Distinct r → Distinct s where
  refl _ := id
  trans h h' := h' ∘ h
  remember r name before h := by
    unfold remember
    split
    · exact h
    · exact h.of_same rfl
  putData _ name v _ h := h.putData name v
  putExtra _ _ _ _ h := h.of_same rfl
  relate _ _ h := h.of_same rfl
  link _ _ _ h := h.of_same rfl

theorem Distinct.storeCoerced (h : Distinct r) (name : String) (v : Value) :
    Distinct (r.storeCoerced name v) :=
  across_storeCoerced acrossWrites_distinct.toChained (acrossWrites_distinct.remember r name)
    (fun _ w _ ht => ht.putData name w) v h

theorem Distinct.takeIn (h : Distinct r) (name : String) (v : Value) :
    Distinct (r.takeIn name v) := by
  unfold Record.takeIn
  split
  · exact Entries.nodup_put h name v
  · exact h.of_same rfl

theorem distinct_ofRow (schema : Schema) (row : Row) (filter : ImportFilter) :
    Distinct (ofRow schema row filter) := by
  have hempty : Distinct { schema, filter } := List.nodup_nil
  exact List.foldlRecOn row _ hempty fun s h entry _ => h.takeIn entry.1 entry.2

theorem names_new (schema : Schema) (filter : ImportFilter) : (new schema filter).data.names =
    ((schema.fieldList.filter Field.isColumn).filter fun f => f.default.isSome).map Field.name := by
  unfold new Entries.names
  dsimp only
  induction schema.fieldList.filter Field.isColumn with
  | nil => rfl
  | cons f rest ih => cases hdefault : f.default <;> simp [hdefault, ih]

theorem Fresh.distinct (hschema : schema.Built) (h : Fresh schema r) : r.Distinct := by
  cases h with
  | new filter =>
    have hnames : schema.fieldList.map Field.name = schema.fields.names := by
      rw [Schema.fieldList, List.map_map]
      exact List.map_congr_left hschema.coherent.named
    have hdeclared : (schema.fieldList.map Field.name).Nodup := hnames ▸ hschema.nodup_fields
    rw [Distinct, names_new]
    exact hdeclared.sublist ((List.filter_sublist.trans List.filter_sublist).map Field.name)
  | loaded row filter => exact distinct_ofRow schema row filter

/-! ## Required columns -/

theorem isMissing_of_current (h : r.current name = .null) :
    isMissing (r.data.get? name) = true := by
  unfold current at h
  cases hv : r.data.get? name with
  | none => rfl
  | some v =>
    rw [hv, Option.getD_some] at h
    rw [h]
    rfl

theorem validate_ne_nil (hkept : r.schema.KeepsErrors)
    (hdeclared : r.schema.field c.name = some c) (hrequired : r.isRequired c = true)
    (hnull : r.current c.name = .null) : r.validate ≠ [] := by
  have hmem : c ∈ r.schema.fieldList := List.mem_map.2 ⟨_, Entries.mem_of_get? hdeclared, rfl⟩
  have hmissing : c ∈ r.schema.fieldList.filter fun f =>
      r.isRequired f && isMissing (r.data.get? f.name) :=
    List.mem_filter.2 ⟨hmem, by rw [hrequired, isMissing_of_current hnull]; rfl⟩
  unfold validate
  refine List.foldlRecOn r.schema.validators _ ?_ fun errors h check hcheck =>
    hkept check hcheck r.value? errors h
  generalize r.schema.fieldList.filter _ = fields at hmissing
  cases fields with
  | nil => cases hmissing
  | cons f rest =>
    have hfirst := ValidationErrors.add_ne_nil [] f.name "is required"
    exact List.foldlRecOn (motive := (· ≠ [])) rest _ hfirst
      fun errors _ g _ => ValidationErrors.add_ne_nil errors g.name "is required"

theorem current_ne_null (hkept : r.schema.KeepsErrors)
    (hdeclared : r.schema.field c.name = some c) (hrequired : r.isRequired c = true)
    (hvalid : r.validate = []) : r.current c.name ≠ .null :=
  fun hnull => validate_ne_nil hkept hdeclared hrequired hnull hvalid

theorem current_store_ne_null (hpresent : r.current name ≠ .null) (hv : v ≠ .null)
    (unchanged : Bool) : (r.store name v unchanged).current name ≠ .null := by
  have hput (s : Record) : (s.putData name v).current name = v := by
    simp [current, putData]
  unfold store
  split
  · exact hpresent
  · rw [hput]
    exact hv

theorem current_storeCoerced_ne_null (hdeclared : r.schema.field c.name = some c)
    (hcolumn : c.isColumn = true) (hpresent : r.current c.name ≠ .null)
    (hform : v.coerce c.type r.filter ≠ .null) :
    (r.storeCoerced c.name v).current c.name ≠ .null := by
  have hfield : (r.schema.field c.name).filter Field.isColumn = some c := by
    simp [hdeclared, hcolumn]
  unfold storeCoerced
  rw [hfield]
  exact current_store_ne_null hpresent hform _

/-! ## Written columns -/

def insertedColumns (r : Record) : Entries Value :=
  (Entries.names (r.data.filter fun entry => !entry.2.isNull)).map fun name =>
    (name, r.current name)

theorem null_notMem_insertedColumns (h : r.Distinct) (name : String) :
    (name, .null) ∉ r.insertedColumns := by
  intro hmem
  obtain ⟨column, hcolumn, hnull⟩ := List.mem_map.1 hmem
  obtain ⟨entry, hentry, rfl⟩ := List.mem_map.1 hcolumn
  obtain ⟨hdata, hvalue⟩ := List.mem_filter.1 hentry
  have hcurrent : r.current entry.1 = entry.2 := by
    rw [current, Entries.get?_of_mem h hdata, Option.getD_some]
  have hnull : entry.2 = .null := hcurrent.symm.trans (congrArg Prod.snd hnull)
  rw [hnull] at hvalue
  cases hvalue

theorem null_notMem_changedColumns (h : r.current name ≠ .null) :
    (name, .null) ∉ r.changedColumns := by
  intro hmem
  obtain ⟨column, -, hcell⟩ := List.mem_map.1 hmem
  obtain ⟨rfl, hnull⟩ := Prod.mk.inj hcell
  exact h hnull

end Record

theorem Edit.Assigned.distinct {start r : Record} (h : Edit.Assigned start r)
    (hstart : start.Distinct) : r.Distinct :=
  h.across Record.acrossWrites_distinct hstart

end RowMapper
