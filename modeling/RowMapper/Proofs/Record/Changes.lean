import RowMapper.Proofs.Record.Tracking

/-! # What changed in a record

The changed fields of a record are listed in the order in which they first changed, each
once, and the columns among them are what an update writes. A record that was loaded or
edited holds no value of a column among the names that its model does not declare, so the
value before the first change is never one of those.
-/

namespace RowMapper

open Run

theorem Entries.get?_erase_of_none {α : Type} {m : Entries α} {other : String}
    (h : m.get? other = none) (key : String) : (m.erase key).get? other = none := by
  by_cases hne : key = other
  · subst hne
    exact get?_erase_self m key
  · rw [get?_erase_of_ne m hne, h]

namespace Record

variable {r s : Record} {name : String}

/-! ## Names that the model does not declare -/

/-- No column has a value among the names that the model does not declare. -/
def Tidy (r : Record) : Prop :=
  ∀ column, r.schema.hasColumn column = true → r.extra.get? column = none

theorem Tidy.of_same (h : Tidy r) (hschema : s.schema = r.schema) (hextra : s.extra = r.extra) :
    Tidy s := by
  rw [Tidy, hschema, hextra]
  exact h

theorem tidy_of_nil (h : r.extra = []) : Tidy r := by
  intro column _
  rw [h]
  rfl

theorem tidy_ofRow (schema : Schema) (row : Row) (filter : ImportFilter) :
    Tidy (ofRow schema row filter) := by
  have hloaded := loaded_ofRow schema row filter
  rw [Tidy, hloaded.schema]
  exact hloaded.extra

theorem Tidy.putData (h : Tidy r) (name : String) (v : Value) : Tidy (r.putData name v) :=
  fun column hcolumn => Entries.get?_erase_of_none (h column hcolumn) name

theorem acrossWrites_tidy : AcrossWrites fun r s => Tidy r → Tidy s where
  refl _ := id
  trans h h' := h' ∘ h
  remember r name before h := by
    unfold remember
    split
    · exact h
    · exact h.of_same rfl rfl
  putData _ name v _ h := h.putData name v
  putExtra r name v hname h column hcolumn := by
    have hne : name ≠ column := by
      rintro rfl
      simp [Schema.hasColumn, hname] at hcolumn
    exact (Entries.get?_put_of_ne _ _ hne).trans (h column hcolumn)
  relate _ _ h := h.of_same rfl rfl
  link _ _ _ h := h.of_same rfl rfl

theorem Tidy.storeCoerced (h : Tidy r) (name : String) (v : Value) :
    Tidy (r.storeCoerced name v) :=
  across_storeCoerced acrossWrites_tidy.toChained (acrossWrites_tidy.remember r name)
    (fun _ w _ ht => ht.putData name w) v h

/-- At the start of a cycle a tidy record is on the track of each of its columns. -/
theorem Tidy.tracks (h : Tidy r) (hinitial : r.initial = []) {column : String}
    (hcolumn : r.schema.hasColumn column = true) : Tracks r column r where
  schema := rfl
  extra := h column hcolumn
  clean _ := rfl
  dirty x hx := by simp [initial?, hinitial] at hx

/-! ## The names of changed fields -/

/-- The changed fields in the order in which they first changed. -/
def changedNames (r : Record) : List String := Entries.names r.initial

theorem isDirty_iff_mem : r.isDirty name = true ↔ name ∈ r.changedNames :=
  Entries.mem_names_iff.symm

def OneMore (r s : Record) : Prop :=
  s.changedNames = r.changedNames ∨
    ∃ name, name ∉ r.changedNames ∧ s.changedNames = r.changedNames ++ [name]

theorem OneMore.nodup (h : OneMore r s) (hr : r.changedNames.Nodup) : s.changedNames.Nodup := by
  rcases h with h | ⟨name, hname, h⟩
  · rwa [h]
  · rw [h, List.nodup_append]
    refine ⟨hr, by simp, fun a ha b hb => ?_⟩
    rw [List.mem_singleton.1 hb]
    rintro rfl
    exact hname ha

theorem changedNames_remember (r : Record) (name : String) (before : FieldValue Record) :
    (r.remember name before).changedNames =
      if r.isDirty name then r.changedNames else r.changedNames ++ [name] := by
  unfold remember
  by_cases hd : r.isDirty name
  · simp [hd]
  · have hhas : Entries.has r.initial name = false := by simpa [isDirty] using hd
    simp [hd, changedNames, Entries.names_put, hhas]

theorem oneMore_remember (r : Record) (name : String) (before : FieldValue Record) :
    OneMore r (r.remember name before) := by
  rw [OneMore, changedNames_remember]
  by_cases hd : r.isDirty name
  · simp [hd]
  · exact .inr ⟨name, mt isDirty_iff_mem.2 hd, by simp [hd]⟩

theorem changedNames_store (r : Record) (name : String) (v : Value) (unchanged : Bool) :
    (r.store name v unchanged).changedNames = r.changedNames ∨
      r.isDirty name = false ∧
        (r.store name v unchanged).changedNames = r.changedNames ++ [name] := by
  unfold store
  split
  · exact .inl rfl
  · dsimp only
    split
    · exact .inl rfl
    · change (remember _ _ _).changedNames = _ ∨ _ ∧ (remember _ _ _).changedNames = _
      rw [changedNames_remember]
      cases r.isDirty name <;> simp

theorem changedNames_storeCoerced (r : Record) (name : String) (v : Value) :
    (r.storeCoerced name v).changedNames = r.changedNames ∨
      r.isDirty name = false ∧
        (r.storeCoerced name v).changedNames = r.changedNames ++ [name] := by
  unfold storeCoerced
  split
  · exact r.changedNames_store name _ _
  · exact r.changedNames_store name _ _

theorem oneMore_of_store (h : s.changedNames = r.changedNames ∨
    r.isDirty name = false ∧ s.changedNames = r.changedNames ++ [name]) : OneMore r s := by
  rcases h with h | ⟨hd, h⟩
  · exact .inl h
  · exact .inr ⟨name, fun hmem => by simp [isDirty_iff_mem.2 hmem] at hd, h⟩

theorem oneMore_effect {v : FieldValue Record} (he : Edit.Effect name v r s) : OneMore r s := by
  have stored (column : String) (w : Value) : OneMore r (r.storeCoerced column w) :=
    oneMore_of_store (r.changedNames_storeCoerced column w)
  cases he with
  | refused => exact .inl rfl
  | column _ w => exact stored name w
  | sqlText _ sql => exact oneMore_of_store (r.changedNames_store name _ _)
  | owner _ relation => exact stored relation.localColumn _
  | noOwner _ relation => exact stored relation.localColumn _
  | ownerKey _ relation => exact stored relation.localColumn _
  | dependents => exact .inl rfl
  | links _ _ _ _ before _ found =>
    have hbefore := r.oneMore_remember name before
    cases found <;> exact hbefore
  | undeclared => exact .inl rfl

/-! ## The columns of an update -/

theorem isWritable_iff :
    r.isWritable name = true ↔ ∀ kind, r.schema.access name ≠ some (.relation kind) := by
  unfold isWritable
  split <;> simp_all

theorem names_changedColumns (r : Record) :
    Entries.names r.changedColumns = r.changedNames.filter r.isWritable := by
  simp [Entries.names, changedColumns, changedNames, Function.comp_def]

theorem mem_changedColumns {v : Value} :
    (name, v) ∈ r.changedColumns ↔
      r.isDirty name = true ∧ r.isWritable name = true ∧ v = r.current name := by
  simp only [changedColumns, List.mem_map, List.mem_filter, Prod.mk.injEq, isDirty_iff_mem,
    changedNames, current]
  constructor
  · rintro ⟨_, ⟨hname, hwritable⟩, rfl, rfl⟩
    exact ⟨hname, hwritable, rfl⟩
  · rintro ⟨hname, hwritable, rfl⟩
    exact ⟨name, ⟨hname, hwritable⟩, rfl, rfl⟩

theorem changedColumns_of_columns
    (h : ∀ name ∈ r.changedNames, r.schema.hasColumn name = true) :
    r.changedColumns = r.changedNames.map fun name => (name, r.current name) := by
  have hwritable : r.changedNames.filter r.isWritable = r.changedNames := by
    rw [List.filter_eq_self]
    intro name hname
    have haccess : r.schema.access name = some .column := by
      simpa [Schema.hasColumn] using h name hname
    simp [isWritable, haccess]
  unfold changedColumns
  rw [show Entries.names r.initial = r.changedNames from rfl, hwritable]
  rfl

theorem changesRow_ofRow (schema : Schema) (row : Row) (filter : ImportFilter) :
    ChangesRow { schema, filter } (ofRow schema row filter) := by
  have taken (r : Record) (name : String) (v : Value) : ChangesRow r (r.takeIn name v) := by
    unfold takeIn
    split
    · exact ⟨_, r.extra, r.initial, rfl⟩
    · exact ⟨r.data, _, r.initial, rfl⟩
  exact List.foldlRecOn row _ (chained_changesRow.refl _)
    fun r h entry _ => chained_changesRow.trans h (taken r entry.1 entry.2)

end Record

/-! ## Runs of assignments -/

namespace Edit

open Record

variable {start r : Record}

theorem Assigned.tidy (h : Assigned start r) (hstart : start.Tidy) : r.Tidy :=
  h.across acrossWrites_tidy hstart

theorem Assigned.nodup_changedNames (h : Assigned start r) (hstart : start.changedNames.Nodup) :
    r.changedNames.Nodup := by
  induction h with
  | start => exact hstart
  | assign _ name v ih => exact (oneMore_effect (effect_assign name v _)).nodup ih

inductive Call where
  | set (name : String) (v : FieldValue Record)
  | setAll (values : List (String × FieldValue Record))

def Call.edit : Call → Edit Unit
  | set name v => assign name v
  | setAll values => assignAll values

/-- The record after calls, each with or without success. -/
def afterCalls (calls : List Call) (r : Record) : Record :=
  calls.foldl (fun r call => final (call.edit r)) r

theorem Assigned.afterCalls (h : Assigned start r) (calls : List Call) :
    Assigned start (afterCalls calls r) := by
  induction calls generalizing r with
  | nil => exact h
  | cons call rest ih =>
    refine ih ?_
    cases call with
    | set name v => exact h.assign name v
    | setAll values => exact h.assignAll values

/-! ## Assignments to columns -/

theorem assign_column_cases {name : String} (hname : r.schema.hasColumn name = true)
    (v : FieldValue Record) : final (assign name v r) = r ∨
      ∃ w unchanged, final (assign name v r) = r.store name w unchanged := by
  generalize hs : final (assign name v r) = s
  have he : Effect name v r s := hs ▸ effect_assign name v r
  cases he with
  | refused => exact .inl rfl
  | column _ w =>
    unfold storeCoerced
    split <;> exact .inr ⟨_, _, rfl⟩
  | sqlText _ sql => exact .inr ⟨_, _, rfl⟩
  | owner h | noOwner h | ownerKey h | dependents h | links h => simp [h] at hname
  | undeclared h => simp [Schema.hasColumn, h] at hname

theorem changesRow_assign {name : String} (hname : r.schema.hasColumn name = true)
    (v : FieldValue Record) : ChangesRow r (final (assign name v r)) := by
  rcases assign_column_cases hname v with h | ⟨w, unchanged, h⟩
  · rw [h]
    exact chained_changesRow.refl r
  · rw [h]
    exact r.changesRow_store name w unchanged

def firstChange (name : String) (r s : Record) : List String :=
  if !r.isDirty name && s.isDirty name then [name] else []

theorem changedNames_assign {name : String} (hname : r.schema.hasColumn name = true)
    (v : FieldValue Record) : (final (assign name v r)).changedNames =
      r.changedNames ++ firstChange name r (final (assign name v r)) := by
  have hnames : (final (assign name v r)).changedNames = r.changedNames ∨
      r.isDirty name = false ∧
        (final (assign name v r)).changedNames = r.changedNames ++ [name] := by
    rcases assign_column_cases hname v with h | ⟨w, unchanged, h⟩
    · exact .inl (by rw [h])
    · rw [h]
      exact r.changedNames_store name w unchanged
  rcases hnames with h | ⟨hclean, h⟩
  · have hsame : (final (assign name v r)).isDirty name = r.isDirty name := by
      rw [Bool.eq_iff_iff, isDirty_iff_mem, isDirty_iff_mem, h]
    simp [firstChange, hsame, h]
  · have hdirty : (final (assign name v r)).isDirty name = true :=
      isDirty_iff_mem.2 (by simp [h])
    simp [firstChange, hclean, hdirty, h]

def Call.ofPair (entry : String × FieldValue Record) : Call := .set entry.1 entry.2

/-- The columns of assignments in the order in which these first change them. -/
def firstChanges : List (String × FieldValue Record) → Record → List String
  | [], _ => []
  | (name, v) :: rest, r =>
    let s := final (assign name v r)
    firstChange name r s ++ firstChanges rest s

/-- The run: after assignments to columns the changed fields are those that were changed before and
those that the assignments first changed, in order. -/
theorem changedNames_afterCalls {values : List (String × FieldValue Record)}
    (hcolumns : ∀ entry ∈ values, r.schema.hasColumn entry.1 = true) :
    ChangesRow r (afterCalls (values.map .ofPair) r) ∧
      (afterCalls (values.map .ofPair) r).changedNames =
        r.changedNames ++ firstChanges values r := by
  induction values generalizing r with
  | nil => exact ⟨chained_changesRow.refl r, by simp [afterCalls, firstChanges]⟩
  | cons entry rest ih =>
    obtain ⟨name, v⟩ := entry
    rw [List.forall_mem_cons] at hcolumns
    have hstep := changesRow_assign hcolumns.1 v
    obtain ⟨hrow, hnames⟩ := ih (r := final (assign name v r)) (hstep.schema.symm ▸ hcolumns.2)
    refine ⟨chained_changesRow.trans hstep hrow, hnames.trans ?_⟩
    rw [changedNames_assign hcolumns.1, firstChanges, List.append_assoc]

/-- Of a loaded record the assignments change the row alone, and no field is changed before. -/
theorem changes_of_loaded {schema : Schema} {row : Row} {filter : ImportFilter}
    {values : List (String × FieldValue Record)}
    (hcolumns : ∀ entry ∈ values, schema.hasColumn entry.1 = true)
    (hr : r = afterCalls (values.map .ofPair) (ofRow schema row filter)) :
    ChangesRow { schema, filter } r ∧
      r.changedNames = firstChanges values (ofRow schema row filter) := by
  have hloaded := loaded_ofRow schema row filter
  obtain ⟨hrow, hnames⟩ := changedNames_afterCalls (r := ofRow schema row filter)
    (hloaded.schema.symm ▸ hcolumns)
  have hclean : (ofRow schema row filter).changedNames = [] := by
    rw [changedNames, hloaded.initial]
    rfl
  rw [← hr] at hrow hnames
  exact ⟨chained_changesRow.trans (changesRow_ofRow schema row filter) hrow,
    by rw [hnames, hclean, List.nil_append]⟩

theorem hasColumn_of_mem_firstChanges {values : List (String × FieldValue Record)} {schema : Schema}
    (hcolumns : ∀ entry ∈ values, schema.hasColumn entry.1 = true) {name : String}
    (h : name ∈ firstChanges values r) : schema.hasColumn name = true := by
  induction values generalizing r with
  | nil => cases h
  | cons entry rest ih =>
    rw [List.forall_mem_cons] at hcolumns
    rcases List.mem_append.1 h with h | h
    · unfold firstChange at h
      split at h
      · rw [List.mem_singleton.1 h]
        exact hcolumns.1
      · cases h
    · exact ih hcolumns.2 h

end Edit

end RowMapper
