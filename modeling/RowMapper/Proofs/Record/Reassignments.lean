import RowMapper.Proofs.Record.Changes
import RowMapper.Proofs.Record.IntegerChanges
import RowMapper.Proofs.Value.KeptValues

/-! # Columns that are assigned what they have

A loaded record has the values that the database returned, an assignment stores the form that the
column's type makes of a value. Assigning a column what is read from it leaves the record alone just
when the column takes the value for the same as its form; else it counts as a change. Moments, times
of day and numbers may be loaded in any kind of value. A UUID or JSON that was loaded as text is
changed.
-/

namespace RowMapper

open Run

namespace Record

variable {r : Record} {column : String} {v : Value}

theorem fieldValue_column (hlive : r.voided = false)
    (haccess : r.schema.access column = some .column) (hdata : r.data.get? column = some v) :
    r.fieldValue column = .ok (.ofValue v) := by
  rw [fieldValue, ensureLive_of_live hlive, haccess, hdata]
  rfl

/-- Two records have the same values, and the same changes since they were loaded or saved. -/
structure SameStores (r s : Record) : Prop where
  data : s.data = r.data
  extra : s.extra = r.extra
  initial : s.initial = r.initial

end Record

namespace Edit

open Record

variable {r : Record} {column : String} {f : Field} {v : Value}

def reassign (name : String) : Edit Unit := do
  let r ← get
  let v ← check (r.fieldValue name)
  assign name v

theorem assign_ofValue (hlive : r.voided = false) (haccess : r.schema.access column = some .column)
    (v : Value) : assign column (.ofValue v) r = .ok () (r.storeCoerced column v) := by
  cases v with
  | null =>
    change (check r.ensureLive >>= _) r = _
    rw [bind_of_ok (check_ensureLive hlive), haccess]
    rfl
  | _ => exact assign_column hlive haccess _

/-- A column that is assigned its own value stores the form of it. -/
theorem reassign_column (hlive : r.voided = false) (haccess : r.schema.access column = some .column)
    (hdata : r.data.get? column = some v) :
    reassign column r = .ok () (r.storeCoerced column v) := by
  change (check (r.fieldValue column) >>= assign column) r = _
  rw [fieldValue_column hlive haccess hdata]
  exact assign_ofValue hlive haccess v

/-- A column of a loaded record can be assigned its own value. The record keeps its values and is
without changes just when the value is null or one that the family of the column's type keeps. Just
then an update does not write the column. -/
theorem reassign_loaded_iff {schema : Schema} {row : Row} (hfield : schema.field column = some f)
    (hcolumn : f.isColumn = true) (hdata : (Record.ofRow schema row).data.get? column = some v)
    (hproper : v.IsProper) :
    ∃ s, reassign column (Record.ofRow schema row) = .ok () s ∧
      ((Record.ofRow schema row).SameStores s ↔ v = .null ∨ v.KeptBy f.type.family) ∧
      (column ∉ s.changedColumns.names ↔ v = .null ∨ v.KeptBy f.type.family) := by
  have hloaded := Record.loaded_ofRow schema row ImportFilter.passThrough
  have haccess := hloaded.access_eq hdata
  have hkept := Value.sameFor_coerce_iff f.type hproper
  refine ⟨_, reassign_column hloaded.voided haccess hdata, ?_⟩
  rw [storeCoerced_of_get? (hloaded.schema.symm ▸ hfield) hcolumn hdata,
    (changesRow_ofRow schema row ImportFilter.passThrough).filter]
  by_cases hsame : Value.sameFor f.type v (v.coerce f.type .passThrough) = true
  · rw [if_pos hsame]
    have hnone : (Record.ofRow schema row).changedColumns = [] := by
      rw [changedColumns, hloaded.initial]
      rfl
    refine ⟨iff_of_true ⟨rfl, rfl, rfl⟩ (hkept.1 hsame), iff_of_true ?_ (hkept.1 hsame)⟩
    rw [hnone]
    exact List.not_mem_nil
  · rw [if_neg hsame]
    have hrecorded := recorded_putData haccess (hloaded.initial?_eq column) v
      (v.coerce f.type .passThrough)
    have hlost := mt hkept.2 hsame
    refine ⟨iff_of_false (fun h => ?_) hlost, iff_of_false (not_not_intro ?_) hlost⟩
    · have hknown := hrecorded.known
      rw [initial?, h.initial, ← initial?, hloaded.initial?_eq] at hknown
      cases hknown
    · exact List.mem_map_of_mem hrecorded.written

def parcelSample : Schema :=
  ((Schema.new "Parcel" "parcels").withColumn "sent_at" .dateTime).withColumn "token" .uuid

def sentSample : Calendar.Timestamp :=
  ⟨{ year := 2024, month := 1, day := 5 },
    { hour := 8, minute := 20, second := 40, nano := 250000000 }⟩

def tokenText : String := "550e8400-e29b-41d4-a716-446655440000"

/-- A loaded parcel, as a database without a type for UUIDs returns it. -/
def loadedParcel : Record :=
  Record.ofRow parcelSample
    [("id", .int64 1), ("sent_at", .timestamp sentSample), ("token", .text tokenText)]

theorem parcelSample_kept : ∃ s, reassign "sent_at" loadedParcel = .ok () s ∧
    loadedParcel.SameStores s ∧ "sent_at" ∉ s.changedColumns.names := by
  obtain ⟨s, hassign, hsame, hwritten⟩ := reassign_loaded_iff
    (show parcelSample.field "sent_at" = some { name := "sent_at", type := .dateTime } from rfl)
    rfl (show loadedParcel.data.get? "sent_at" = some (.timestamp sentSample) from rfl) trivial
  have hkept : (Value.timestamp sentSample).KeptBy .dateTime :=
    ⟨sentSample.wholeSecond, rfl⟩
  exact ⟨s, hassign, hsame.2 (.inr hkept), hwritten.2 (.inr hkept)⟩

/-- The text of a UUID is changed into the UUID. -/
theorem parcelSample_changed : ∃ s u, reassign "token" loadedParcel = .ok () s ∧
    loadedParcel.data.get? "token" = some (.text tokenText) ∧
    s.data.get? "token" = some (.uuid u) ∧ "token" ∈ s.changedColumns.names := by
  have hdata : loadedParcel.data.get? "token" = some (.text tokenText) := rfl
  have hread : (Uuid.parse? (Text.trim tokenText)).isSome = true := by decide +kernel
  obtain ⟨u, hparse⟩ := Option.isSome_iff_exists.1 hread
  have hform : (Value.text tokenText).coerce .uuid .passThrough = .uuid u := by
    simp [Value.coerce, Value.isNull, Value.keepsNow, SqlType.family, Value.toUuidForm, hparse]
  have hchanged : Value.sameFor .uuid (.text tokenText) (.uuid u) = false := rfl
  have hstore : loadedParcel.storeCoerced "token" (.text tokenText) =
      (loadedParcel.remember "token" (.ofValue (.text tokenText))).putData "token" (.uuid u) := by
    rw [storeCoerced_of_get? (f := { name := "token", type := .uuid }) rfl rfl hdata]
    change (if Value.sameFor .uuid _ (Value.coerce .uuid .passThrough _) = true then _ else
      Record.putData _ _ (Value.coerce .uuid .passThrough _)) = _
    rw [hform, hchanged, if_neg Bool.false_ne_true]
  have haccess : loadedParcel.schema.access "token" = some .column := rfl
  have hrecorded := recorded_putData haccess rfl (.text tokenText) (.uuid u)
  refine ⟨_, u, reassign_column rfl rfl hdata, hdata, ?_⟩
  rw [hstore]
  exact ⟨hrecorded.stored, List.mem_map_of_mem hrecorded.written⟩

end Edit

end RowMapper
