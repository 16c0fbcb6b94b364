import RowMapper.Proofs.Record.Writes

/-! # What a record knows of its changes

A column remembers what it was before its first change. Whatever is assigned to a
record afterwards, to this or to other fields and with or without success, a
changed column still knows the value it began with, and an unchanged one still has
it.
-/

namespace RowMapper

open Run

namespace Value

@[simp] theorem sameFor_null_left (type : SqlType) (v : Value) :
    sameFor type .null v = v.isNull := by
  cases v <;> rfl

@[simp] theorem equal_null_left (v : Value) : Value.equal .null v = v.isNull := by
  cases v <;> rfl

@[simp] theorem equal_int64_right {v : Value} {n : Int64} :
    Value.equal v (.int64 n) = true ↔ v = .int64 n := by
  cases v <;> simp [Value.equal]

end Value

namespace Record

/-- The value of a column; a missing one counts as null. -/
def current (r : Record) (column : String) : Value := (r.data.get? column).getD .null

/-! ## Loaded records -/

/-- How the values of a row are spread over the columns and the other names. -/
structure Loaded (s : Schema) (r : Record) : Prop where
  schema : r.schema = s
  initial : r.initial = []
  voided : r.voided = false
  extra : ∀ column, s.hasColumn column = true → r.extra.get? column = none
  data : ∀ column, s.hasColumn column = false → r.data.get? column = none

theorem Loaded.takeIn {schema : Schema} {r : Record} (h : Loaded schema r) (name : String)
    (v : Value) : Loaded schema (r.takeIn name v) := by
  unfold Record.takeIn
  split
  · next hname =>
    rw [h.schema] at hname
    refine ⟨h.schema, h.initial, h.voided, h.extra, fun column hcolumn => ?_⟩
    have hne : name ≠ column := by
      rintro rfl
      simp [hname] at hcolumn
    exact (Entries.get?_put_of_ne _ _ hne).trans (h.data column hcolumn)
  · next hname =>
    rw [h.schema] at hname
    refine ⟨h.schema, h.initial, h.voided, fun column hcolumn => ?_, h.data⟩
    have hne : name ≠ column := by
      rintro rfl
      exact hname hcolumn
    exact (Entries.get?_put_of_ne _ _ hne).trans (h.extra column hcolumn)

theorem loaded_ofRow (schema : Schema) (row : Row) (filter : ImportFilter) :
    Loaded schema (ofRow schema row filter) :=
  List.foldlRecOn row _ ⟨rfl, rfl, rfl, fun _ _ => rfl, fun _ _ => rfl⟩
    fun _ h entry _ => h.takeIn entry.1 entry.2

theorem Loaded.hasColumn {schema : Schema} {r : Record} {column : String} {v : Value}
    (h : Loaded schema r) (hdata : r.data.get? column = some v) :
    schema.hasColumn column = true := by
  cases hcolumn : schema.hasColumn column with
  | true => rfl
  | false =>
    rw [h.data column hcolumn] at hdata
    cases hdata

theorem Loaded.access_eq {schema : Schema} {r : Record} {column : String} {v : Value}
    (h : Loaded schema r) (hdata : r.data.get? column = some v) :
    r.schema.access column = some .column := by
  rw [h.schema]
  simpa [Schema.hasColumn] using h.hasColumn hdata

theorem Loaded.initial?_eq {schema : Schema} {r : Record} (h : Loaded schema r)
    (column : String) : r.initial? column = none := by
  rw [initial?, h.initial]
  rfl

theorem Loaded.hasColumn_primaryKey {schema : Schema} {r : Record} {key : Value}
    (h : Loaded schema r) (hkey : r.key? = some key) :
    schema.hasColumn schema.primaryKey = true := by
  obtain ⟨hdata, -⟩ := Option.filter_eq_some_iff.1 hkey
  rw [h.schema] at hdata
  exact h.hasColumn hdata

theorem ne_null_of_key? {r : Record} {key : Value} (h : r.key? = some key) : key ≠ .null := by
  rintro rfl
  obtain ⟨-, hempty⟩ := Option.filter_eq_some_iff.1 h
  cases hempty

/-! ## What a store leaves alone -/

/-- Only the values of the row changed, and what is known of their changes. -/
def ChangesRow (r s : Record) : Prop := ∃ data extra initial, s = { r with data, extra, initial }

theorem chained_changesRow : Chained ChangesRow where
  refl r := ⟨r.data, r.extra, r.initial, by cases r; rfl⟩
  trans := by
    rintro r _ _ ⟨_, _, _, rfl⟩ ⟨data, extra, initial, rfl⟩
    exact ⟨data, extra, initial, rfl⟩

theorem ChangesRow.schema {r s : Record} (h : ChangesRow r s) : s.schema = r.schema := by
  rcases h with ⟨_, _, _, rfl⟩
  rfl

theorem ChangesRow.filter {r s : Record} (h : ChangesRow r s) : s.filter = r.filter := by
  rcases h with ⟨_, _, _, rfl⟩
  rfl

theorem ChangesRow.related? {r s : Record} (h : ChangesRow r s) (name : String) :
    s.related? name = r.related? name := by
  rcases h with ⟨_, _, _, rfl⟩
  rfl

theorem changesRow_remember (r : Record) (name : String) (before : FieldValue Record) :
    ChangesRow r (r.remember name before) := by
  unfold remember
  split
  · exact chained_changesRow.refl r
  · exact ⟨r.data, r.extra, _, rfl⟩

theorem changesRow_putData (r : Record) (name : String) (v : Value) :
    ChangesRow r (r.putData name v) :=
  ⟨_, _, r.initial, rfl⟩

theorem changesRow_store (r : Record) (name : String) (v : Value) (unchanged : Bool) :
    ChangesRow r (r.store name v unchanged) :=
  across_store chained_changesRow (r.changesRow_remember name)
    (fun s _ => s.changesRow_putData name v) unchanged

theorem changesRow_storeCoerced (r : Record) (name : String) (v : Value) :
    ChangesRow r (r.storeCoerced name v) :=
  across_storeCoerced chained_changesRow (r.changesRow_remember name)
    (fun s w _ => s.changesRow_putData name w) v

/-- What a record has of a name, and what it knows of its changes, is the same. -/
structure SameAt (name : String) (r s : Record) : Prop where
  schema : s.schema = r.schema
  data : s.data.get? name = r.data.get? name
  extra : s.extra.get? name = r.extra.get? name
  initial : s.initial? name = r.initial? name

theorem chained_sameAt (name : String) : Chained (SameAt name) where
  refl _ := ⟨rfl, rfl, rfl, rfl⟩
  trans h h' := ⟨h'.schema.trans h.schema, h'.data.trans h.data, h'.extra.trans h.extra,
    h'.initial.trans h.initial⟩

section

variable {name other : String} (r : Record) (hne : name ≠ other)
include hne

theorem sameAt_remember (before : FieldValue Record) : SameAt other r (r.remember name before) := by
  unfold remember
  split
  · exact ⟨rfl, rfl, rfl, rfl⟩
  · exact ⟨rfl, rfl, rfl, Entries.get?_put_of_ne _ _ hne⟩

theorem sameAt_putData (v : Value) : SameAt other r (r.putData name v) :=
  ⟨rfl, Entries.get?_put_of_ne _ _ hne, Entries.get?_erase_of_ne _ hne, rfl⟩

theorem sameAt_store (v : Value) (unchanged : Bool) :
    SameAt other r (r.store name v unchanged) :=
  across_store (chained_sameAt other) (r.sameAt_remember hne)
    (fun s _ => s.sameAt_putData hne v) unchanged

theorem sameAt_storeCoerced (v : Value) : SameAt other r (r.storeCoerced name v) :=
  across_storeCoerced (chained_sameAt other) (r.sameAt_remember hne)
    (fun s w _ => s.sameAt_putData hne w) v

end

/-! ## First values -/

/-- For one column, a record knows what it had at the start, and has it still unless it is
changed. -/
structure Tracks (start : Record) (column : String) (r : Record) : Prop where
  schema : r.schema = start.schema
  extra : r.extra.get? column = none
  clean : r.initial? column = none → r.current column = start.current column
  dirty : ∀ x, r.initial? column = some x → x = .ofValue (start.current column)

namespace Tracks

variable {start r : Record} {column name : String}

theorem value?_getD (h : Tracks start column r) :
    (r.value? column).getD .null = r.current column := by
  simp [value?, current, h.extra]

theorem of_loaded {schema : Schema} (h : Loaded schema start)
    (hcolumn : schema.hasColumn column = true) : Tracks start column start where
  schema := rfl
  extra := h.extra column hcolumn
  clean _ := rfl
  dirty x hx := by simp [initial?, h.initial] at hx

theorem of_same {s : Record} (h : Tracks start column r) (hs : SameAt column r s) :
    Tracks start column s where
  schema := hs.schema.trans h.schema
  extra := hs.extra.trans h.extra
  clean hi := by
    rw [current, hs.data]
    exact h.clean (hs.initial ▸ hi)
  dirty x hx := h.dirty x (hs.initial ▸ hx)

/-- The value before the first change is the one at the start. -/
theorem remember_self (h : Tracks start column r) :
    (r.remember column (.ofValue (r.current column))).initial? column =
      some (.ofValue (start.current column)) := by
  by_cases hd : r.isDirty column
  · obtain ⟨x, hx⟩ := Option.isSome_iff_exists.1 hd
    have hx' : r.initial? column = some x := hx
    simp [remember, hd, hx', h.dirty x hx']
  · have hc : r.initial? column = none := by
      simpa [isDirty, Entries.has, initial?] using hd
    simp [remember, hd, initial?, h.clean hc]

/-- Storing a value in the column itself, where null is the only value that counts as no change to
a missing one. -/
theorem store_self (h : Tracks start column r) (v : Value) (unchanged : Bool)
    (hnull : unchanged = true → r.current column = .null → v = .null) :
    Tracks start column (r.store column v unchanged) := by
  by_cases hkept : (unchanged && r.data.has column) = true
  · simpa [store, hkept] using h
  · rw [store, if_neg hkept, h.value?_getD]
    cases unchanged with
    | false =>
      simp only [Bool.false_eq_true, if_false]
      obtain ⟨data, extra, initial, hr⟩ :=
        r.changesRow_remember column (.ofValue (r.current column))
      have hinitial := h.remember_self
      constructor
      · rw [hr]
        exact h.schema
      · exact Entries.get?_erase_self _ _
      · intro hc
        exact absurd (hinitial.symm.trans hc) (by simp)
      · intro x hx
        exact Option.some.inj (hx.symm.trans hinitial)
    | true =>
      -- the column was missing and now is null, which is the same to whoever reads it
      have hmissing : r.data.get? column = none := by
        simpa [Entries.has] using hkept
      have hv : v = .null := hnull rfl (by simp [current, hmissing])
      simp only [if_true]
      constructor
      · exact h.schema
      · exact Entries.get?_erase_self _ _
      · intro hc
        rw [← h.clean hc]
        simp [putData, current, hmissing, hv]
      · exact h.dirty

theorem store (h : Tracks start column r) (name : String) (v : Value) (unchanged : Bool)
    (hnull : unchanged = true → (r.value? name).getD .null = .null → v = .null) :
    Tracks start column (r.store name v unchanged) := by
  by_cases hne : name = column
  · subst hne
    exact h.store_self v unchanged (h.value?_getD ▸ hnull)
  · exact h.of_same (r.sameAt_store hne v unchanged)

theorem storeExact (h : Tracks start column r) (name : String) (v : Value) :
    Tracks start column (r.storeExact name v) := by
  apply h.store
  intro hu hnull
  simpa [hnull] using hu

theorem storeCoerced (h : Tracks start column r) (name : String) (v : Value) :
    Tracks start column (r.storeCoerced name v) := by
  unfold Record.storeCoerced
  split
  · apply h.store
    intro hu hnull
    simpa [hnull] using hu
  · exact h.storeExact name v

theorem effect {v : FieldValue Record} {s : Record} (h : Tracks start column r)
    (hcolumn : start.schema.hasColumn column = true) (he : Edit.Effect name v r s) :
    Tracks start column s := by
  have hne (hname : r.schema.hasColumn name = false) : name ≠ column := by
    rintro rfl
    rw [h.schema, hcolumn] at hname
    cases hname
  cases he with
  | refused => exact h
  | column _ w => exact h.storeCoerced name w
  | sqlText _ sql => exact h.storeExact name _
  | owner _ relation => exact (h.storeCoerced relation.localColumn _).of_same ⟨rfl, rfl, rfl, rfl⟩
  | noOwner _ relation => exact (h.storeCoerced relation.localColumn _).of_same ⟨rfl, rfl, rfl, rfl⟩
  | ownerKey _ relation =>
    exact (h.storeCoerced relation.localColumn _).of_same ⟨rfl, rfl, rfl, rfl⟩
  | dependents => exact h.of_same ⟨rfl, rfl, rfl, rfl⟩
  | links hname _ _ _ before _ found =>
    -- the relation is remembered under its own name, which is not the column's
    have hbefore := h.of_same (r.sameAt_remember (hne hname) before)
    cases found <;> exact hbefore.of_same ⟨rfl, rfl, rfl, rfl⟩
  | undeclared hname =>
    have hother : name ≠ column := hne (by simp [Schema.hasColumn, hname])
    exact h.of_same ⟨rfl, rfl, Entries.get?_put_of_ne _ _ hother, rfl⟩

end Tracks

end Record

/-! ## Assignments -/

namespace Edit

open Record

variable {start : Record} {column name : String}

def Tracking (start : Record) (column : String) (r s : Record) : Prop :=
  Tracks start column r → Tracks start column s

/-- The step: an assignment to any field leaves the record on the track of each of its columns,
whether it succeeds or not. -/
theorem assign_tracking (hcolumn : start.schema.access column = some .column) (name : String)
    (v : FieldValue Record) : Keeps (Tracking start column) (assign name v) :=
  fun r h => h.effect (by simpa [Schema.hasColumn] using hcolumn) (effect_assign name v r)

/-- The records that assignments lead to, whether they succeed or not. -/
inductive Assigned (start : Record) : Record → Prop
  | start : Assigned start start
  | assign {r : Record} (h : Assigned start r) (name : String) (v : FieldValue Record) :
      Assigned start (final (assign name v r))

theorem Assigned.assignAll {r : Record} (h : Assigned start r)
    (values : List (String × FieldValue Record)) :
    Assigned start (final (Edit.assignAll values r)) := by
  induction values generalizing r with
  | nil => exact h
  | cons entry rest ih =>
    obtain ⟨name, v⟩ := entry
    have hread : Edit.assignAll ((name, v) :: rest) r =
        (if isGuarded r.schema name then Edit.assignAll rest
          else Edit.assign name v >>= fun _ => Edit.assignAll rest) r := rfl
    rw [hread]
    split
    · exact ih h
    · have hstep := h.assign name v
      cases ha : Edit.assign name v r with
      | ok a s =>
        rw [ha] at hstep
        rw [bind_of_ok ha]
        exact ih hstep
      | error e s =>
        rw [ha] at hstep
        rwa [bind_of_error ha]

/-- The run: what holds across single writes holds across any assignments. -/
theorem Assigned.across {F : Record → Record → Prop} (hF : AcrossWrites F) {r : Record}
    (h : Assigned start r) : F start r := by
  induction h with
  | start => exact hF.refl start
  | assign _ name v ih => exact hF.trans ih (hF.effect (effect_assign name v _))

/-- The run: after any assignments the record is on the track of each of its columns. -/
theorem Assigned.tracks {r : Record} (h : Assigned start r)
    (hcolumn : start.schema.access column = some .column) (hstart : Tracks start column start) :
    Tracks start column r := by
  induction h with
  | start => exact hstart
  | assign _ name v ih => exact assign_tracking hcolumn name v _ ih

theorem Assigned.tracks_key {schema : Schema} {r : Record} {key : Value}
    (hloaded : Loaded schema start) (hkey : start.key? = some key) (h : Assigned start r) :
    Tracks start schema.primaryKey r := by
  have hcolumn := hloaded.hasColumn_primaryKey hkey
  refine h.tracks ?_ (.of_loaded hloaded hcolumn)
  rw [hloaded.schema]
  simpa [Schema.hasColumn] using hcolumn

end Edit

end RowMapper
