import RowMapper.Proofs.Decimal.Integers
import RowMapper.Proofs.Record.Tracking

/-! # Changes of integer columns

Change tracking compares numbers as doubles. An integer that is assigned to a
column is recorded as a change just when it and the present one round to different
doubles; else the assignment leaves the record as it is. Up to `2 ^ 53` no change
is missed.
-/

namespace RowMapper

open Run Decimal

namespace Value

variable {type : SqlType}

theorem coerce_int64 (h : type.family = .integer) (filter : ImportFilter) (n : Int64) :
    coerce type filter (.int64 n) = .int64 n := by
  simp [coerce, h, isNull, isNow, toIntegerForm]

/-- Integers mean the same for an integer column when they round to one double. -/
theorem sameFor_int64_iff (h : type.family = .integer) (a b : Int64) :
    sameFor type (.int64 a) (.int64 b) = true ↔ nearestInt a.toInt = nearestInt b.toInt := by
  have bounded (n : Int64) : n.toInt.natAbs < 2 ^ 64 := by
    have := n.toInt_lt
    have := n.le_toInt
    omega
  rw [← floatOfInt_beq_iff (bounded a) (bounded b)]
  simp [sameFor, h, isNull, toFloat?]

end Value

namespace Record

variable {r : Record} {column : String} {f : Field} {a b : Int64}

/-- A change is recorded: the new value is stored, the old one is known, and an update writes the
column. -/
structure Recorded (r : Record) (column : String) (before after : Value) : Prop where
  stored : r.data.get? column = some after
  known : r.initial? column = some (.ofValue before)
  written : (column, after) ∈ r.changedColumns

/-- The store of a value in a column that has one: the form of the value, unless it means the
same. -/
theorem storeCoerced_of_get? {v : Value} (hfield : r.schema.field column = some f)
    (hcolumn : f.isColumn = true) (hdata : r.data.get? column = some v) (w : Value) :
    r.storeCoerced column w =
      if Value.sameFor f.type v (w.coerce f.type r.filter) = true then r
      else (r.remember column (.ofValue v)).putData column (w.coerce f.type r.filter) := by
  have hvalue : (r.value? column).getD .null = v := by simp [value?, hdata]
  have hhas : r.data.has column = true := by simp [Entries.has, hdata]
  have hdeclared : (r.schema.field column).filter Field.isColumn = some f := by
    rw [hfield, Option.filter_some, if_pos hcolumn]
  simp only [storeCoerced, hdeclared, hvalue, store, hhas, Bool.and_true]
  split <;> rfl

theorem storeCoerced_int64 (hfield : r.schema.field column = some f) (hcolumn : f.isColumn = true)
    (hfamily : f.type.family = .integer) (hdata : r.data.get? column = some (.int64 a)) :
    r.storeCoerced column (.int64 b) =
      if nearestInt a.toInt = nearestInt b.toInt then r
      else (r.remember column (.ofValue (.int64 a))).putData column (.int64 b) := by
  rw [storeCoerced_of_get? hfield hcolumn hdata, Value.coerce_int64 hfamily]
  simp only [Value.sameFor_int64_iff hfamily]

theorem recorded_putData (haccess : r.schema.access column = some .column)
    (hclean : r.initial? column = none) (before after : Value) :
    ((r.remember column (.ofValue before)).putData column after).Recorded column before after := by
  have hremember : r.remember column (.ofValue before) =
      { r with initial := Entries.put r.initial column (.ofValue before) } := by
    have hdirty : r.isDirty column = false := by
      rw [isDirty, Entries.has, ← initial?, hclean]
      rfl
    rw [remember, hdirty]
    rfl
  rw [hremember]
  have hstored := Entries.get?_put_self r.data column after
  have hknown := Entries.get?_put_self r.initial column (.ofValue before)
  constructor
  · exact hstored
  · exact hknown
  · apply List.mem_map.2
    refine ⟨column, List.mem_filter.2 ⟨?_, ?_⟩, ?_⟩
    · rw [Entries.mem_names_iff, Entries.has]
      exact congrArg Option.isSome hknown
    · simp [isWritable, putData, haccess]
    · simp [putData, hstored]

end Record

namespace Edit

open Record

variable {r : Record} {column : String} {f : Field} {a b : Int64}

/-- On a live record whose integer column is unchanged the assignment of another integer is
recorded just when the two round to different doubles. Otherwise the record stays as it is. -/
theorem assign_int64 (hlive : r.voided = false) (haccess : r.schema.access column = some .column)
    (hfield : r.schema.field column = some f) (hcolumn : f.isColumn = true)
    (hfamily : f.type.family = .integer) (hdata : r.data.get? column = some (.int64 a))
    (hclean : r.initial? column = none) (hne : a ≠ b) :
    ∃ s, assign column (.scalar (.int64 b)) r = .ok () s ∧
      (s.Recorded column (.int64 a) (.int64 b) ↔ nearestInt a.toInt ≠ nearestInt b.toInt) ∧
      (nearestInt a.toInt = nearestInt b.toInt → s = r) := by
  refine ⟨_, assign_column hlive haccess _, ?_⟩
  rw [storeCoerced_int64 hfield hcolumn hfamily hdata]
  by_cases h : nearestInt a.toInt = nearestInt b.toInt
  · have hlost : ¬ r.Recorded column (.int64 a) (.int64 b) := by
      intro hrecorded
      have hstored := hdata.symm.trans hrecorded.stored
      exact hne (by simpa using hstored)
    simp [h, hlost]
  · have hrecorded := r.recorded_putData haccess hclean (.int64 a) (.int64 b)
    simp [h, hrecorded]

/-- In an integer column of a loaded record a change from `a` to `b` is recorded, and the two
compare as different, just when they round to different doubles. Up to `2 ^ 53` they always do.
When they round to the same double the assignment succeeds and is forgotten. -/
theorem assign_loaded_int64_iff {schema : Schema} {row : Row} {filter : ImportFilter}
    (hfield : schema.field column = some f) (hcolumn : f.isColumn = true)
    (hfamily : f.type.family = .integer)
    (hdata : (Record.ofRow schema row filter).data.get? column = some (.int64 a)) (hne : a ≠ b) :
    ∃ s, assign column (.scalar (.int64 b)) (Record.ofRow schema row filter) = .ok () s ∧
      (s.Recorded column (.int64 a) (.int64 b) ↔ nearestInt a.toInt ≠ nearestInt b.toInt) ∧
      (Value.sameFor f.type (.int64 a) (.int64 b) = false ↔
        nearestInt a.toInt ≠ nearestInt b.toInt) ∧
      (a.toInt.natAbs ≤ 2 ^ 53 → b.toInt.natAbs ≤ 2 ^ 53 →
        s.Recorded column (.int64 a) (.int64 b)) ∧
      (nearestInt a.toInt = nearestInt b.toInt → s = Record.ofRow schema row filter) := by
  have hloaded := Record.loaded_ofRow schema row filter
  obtain ⟨s, hassign, hrecorded, hforgotten⟩ := assign_int64 hloaded.voided
    (hloaded.access_eq hdata) (hloaded.schema.symm ▸ hfield) hcolumn hfamily hdata
    (hloaded.initial?_eq column) hne
  refine ⟨s, hassign, hrecorded, ?_, fun ha hb => hrecorded.2 ?_, hforgotten⟩
  · rw [Bool.eq_false_iff, Ne, Value.sameFor_int64_iff hfamily]
  · rw [nearestInt_of_le ha, nearestInt_of_le hb]
    exact fun h => hne (Int64.toInt_inj.1 h)

def ledgerSample : Schema := (Schema.new "Account" "accounts").withColumn "number" .bigInt

def loadedLedger (n : Int64) : Record :=
  Record.ofRow ledgerSample [("id", .int64 1), ("number", .int64 n)]

theorem loadedLedger_data (n : Int64) :
    (loadedLedger n).data.get? "number" = some (.int64 n) := rfl

theorem ledgerSample_recorded : ∃ s,
    assign "number" (.scalar (.int64 2)) (loadedLedger 1) = .ok () s ∧
      s.Recorded "number" (.int64 1) (.int64 2) := by
  obtain ⟨s, hassign, -, -, hsmall, -⟩ := assign_loaded_int64_iff (a := 1) (b := 2)
    (show ledgerSample.field "number" = some { name := "number", type := .bigInt } from rfl)
    rfl rfl (loadedLedger_data 1) (by decide)
  exact ⟨s, hassign, hsmall (by decide) (by decide)⟩

/-- The number after `2 ^ 53` is taken for `2 ^ 53`. -/
theorem ledgerSample_forgotten : ∃ s,
    assign "number" (.scalar (.int64 9007199254740993)) (loadedLedger 9007199254740992) =
        .ok () s ∧
      s.data.get? "number" = some (.int64 9007199254740992) ∧
      ¬ s.Recorded "number" (.int64 9007199254740992) (.int64 9007199254740993) ∧
      Value.sameFor .bigInt (.int64 9007199254740992) (.int64 9007199254740993) = true := by
  have hrounded : nearestInt (9007199254740992 : Int64).toInt =
      nearestInt (9007199254740993 : Int64).toInt := by decide +kernel
  obtain ⟨s, hassign, hrecorded, hforgotten⟩ := assign_int64 (r := loadedLedger 9007199254740992)
    (f := { name := "number", type := .bigInt }) (b := 9007199254740993) rfl rfl rfl rfl rfl
    (loadedLedger_data 9007199254740992) rfl (by decide)
  refine ⟨s, hassign, ?_, fun h => hrecorded.1 h hrounded, ?_⟩
  · rw [hforgotten hrounded]
    exact loadedLedger_data 9007199254740992
  · exact (Value.sameFor_int64_iff rfl _ _).2 hrounded

end Edit

end RowMapper
