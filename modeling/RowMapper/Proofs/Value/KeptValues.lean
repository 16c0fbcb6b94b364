import RowMapper.Proofs.Value.CanonicalForms
import RowMapper.Proofs.Value.NumberTexts

/-! # Values that keep their meaning

A column compares a value with the form that its type makes of it. Moments, times of day and
numbers are compared by what they stand for, so a text or a narrower number is the same as its
form. JSON and UUIDs are compared as they are, so a text is never the same as what it is read as.
-/

namespace RowMapper

open Decimal

/-! ## Values that equal themselves -/

/-- A JSON value without NaN whose objects have distinct keys. -/
inductive Json.IsProper : Json → Prop
  | null : IsProper .null
  | bool (b : Bool) : IsProper (.bool b)
  | int (n : Int) : IsProper (.int n)
  | float {x : Float} (h : shape x ≠ .nan) : IsProper (.float x)
  | str (s : String) : IsProper (.str s)
  | arr {items : List Json} (h : ∀ j ∈ items, IsProper j) : IsProper (.arr items)
  | obj {members : Entries Json} (hnames : members.names.Nodup)
      (h : ∀ entry ∈ members, IsProper entry.2) : IsProper (.obj members)

theorem Json.equal_self {j : Json} (h : j.IsProper) : j.equal j = true := by
  have hitems {items : List Json} (h : ∀ j ∈ items, j.equal j = true) :
      equalItems items items = true := by
    induction items with
    | nil => rfl
    | cons j items ih =>
      rw [List.forall_mem_cons] at h
      rw [equalItems, h.1, ih h.2]
      rfl
  have hmembers {some all : Entries Json} (hall : ∀ entry ∈ some, all.get? entry.1 = .some entry.2)
      (h : ∀ entry ∈ some, entry.2.equal entry.2 = true) : equalMembers some all = true := by
    induction some with
    | nil => rfl
    | cons entry rest ih =>
      obtain ⟨key, j⟩ := entry
      rw [List.forall_mem_cons] at hall h
      simp only [equalMembers, hall.1, h.1, ih hall.2 h.2, Bool.and_self]
  induction h with
  | null => rfl
  | bool b => simp [equal]
  | int n => simp [equal]
  | float h => exact (beq_self_iff _).2 h
  | str s => simp [equal]
  | arr _ ih => exact hitems ih
  | obj hnames _ ih =>
    simp only [equal, beq_self_eq_true, Bool.true_and]
    exact hmembers (fun entry hentry => Entries.get?_of_mem hnames hentry) ih

namespace Value

def IsProper : Value → Prop
  | .float x => shape x ≠ .nan
  | .json j => j.IsProper
  | _ => True

theorem equal_self {v : Value} (h : v.IsProper) : v.equal v = true := by
  cases v with
  | float x => exact (beq_self_iff x).2 h
  | json j => exact Json.equal_self h
  | _ => simp [equal]

open Calendar Text

variable {type : SqlType} {v : Value}

/-! ## Each family -/

/-- The values that a column of a family takes for the same as their form. The request for the
current time is one only as it is written by the library. -/
def KeptBy : TypeFamily → Value → Prop
  | .integer, v => ∃ x, v.toFloat? = some x ∧ IsWhole64 x
  | .float, v => ∃ x, v.toFloat? = some x ∧ shape x ≠ .nan
  | .boolean, _ => True
  | .text, v => ∃ s, v = .text s
  | .dateTime, v => if v.isNow then v = .text now else ∃ t, v.toTimestamp? = some t
  | .date, v => if v.isNow then v = .text now else ∃ t, v.toTimestamp? = some t
  | .time, v => if v.isNow then v = .text now
      else (∃ t, v.toTime? = some t) ∧ ¬ v.ShowsLeapSecond
  | .json, v => ∃ j, v = .json j
  | .uuid, v => ∃ u, v = .uuid u
  | .binary, _ => True

theorem isNull_eq_false (hnull : v ≠ .null) : v.isNull = false :=
  Bool.eq_false_iff.2 (mt isNull_iff.1 hnull)

theorem sameFor_null_right (type : SqlType) (hnull : v ≠ .null) :
    sameFor type v .null = false := by
  cases v with
  | null => exact absurd rfl hnull
  | _ => rfl

/-- A column of numbers compares the doubles of two numbers. -/
theorem sameFor_numbers (htype : type.family = .integer ∨ type.family = .float) {w : Value}
    {x y : Float} (hx : v.toFloat? = some x) (hy : w.toFloat? = some y) :
    sameFor type v w = (x == y) := by
  have hnull {v : Value} {x : Float} (hx : v.toFloat? = some x) : v.isNull = false := by
    refine isNull_eq_false ?_
    rintro rfl
    cases hx
  rcases htype with htype | htype <;> simp [sameFor, hnull hx, hnull hy, htype, hx, hy]

/-- What is read as no number is not the same as a number. -/
theorem sameFor_of_toFloat?_eq_none (htype : type.family = .integer ∨ type.family = .float)
    {w : Value} (hx : v.toFloat? = none) (hw : w.isNumeric = true ∨ w = .null) (hnull : v ≠ .null) :
    sameFor type v w = false := by
  rcases hw with hw | rfl
  · have hequal : (v == w) = false := by
      change v.equal w = false
      cases v with
      | int32 n | int64 n | float x => cases hx
      | _ => cases w <;> first | rfl | cases hw
    have hwnull : w.isNull = false := by
      refine isNull_eq_false ?_
      rintro rfl
      cases hw
    rcases htype with htype | htype <;> simp [sameFor, hwnull, htype, hx, hequal]
  · exact sameFor_null_right type hnull

theorem IsCanonical.isNumeric {family : TypeFamily} (h : IsCanonical family v)
    (hfamily : family = .integer ∨ family = .float) : v.isNumeric = true ∨ v = .null := by
  cases h with
  | null => exact .inr rfl
  | int64 n => exact .inl rfl
  | float x => exact .inl rfl
  | now h => rcases hfamily with rfl | rfl <;> cases h
  | _ => rcases hfamily with hfamily | hfamily <;> cases hfamily

/-! ### Integers -/

/-- The integer form of a number comes from the integer that it is or that its text writes, else
from its double. -/
theorem toIntegerForm_cases {x : Float} (h : v.toFloat? = some x) :
    (∃ n, fitsInt64 n ∧ v.toIntegerForm = ofInt n ∧
      Stands x.toModel.unpack (nearestInt n * 2 ^ 52)) ∨
    v.toIntegerForm = if isIntegral x then ofInt (toInt64Clamped x) else .null := by
  cases v with
  | int32 n =>
    have hfits : fitsInt64 n.toInt := by
      have := n.toInt_lt
      have := n.le_toInt
      rw [fitsInt64_iff, int64Min, int64Max]
      omega
    obtain rfl := Option.some.inj h
    exact .inl ⟨n.toInt, hfits, rfl, stands_floatOfInt_of_fits hfits⟩
  | int64 n =>
    obtain rfl := Option.some.inj h
    refine .inl ⟨n.toInt, fitsInt64_toInt n, ?_, stands_floatOfInt_of_fits (fitsInt64_toInt n)⟩
    rw [ofInt, Int64.ofInt_toInt]
    rfl
  | float y =>
    obtain rfl := Option.some.inj h
    exact .inr rfl
  | text s =>
    change readFloat (trimChars s.toList) = some x at h
    cases hint : readInt64 (trimChars s.toList) with
    | some n =>
      obtain ⟨-, hfits⟩ := Option.filter_eq_some_iff.1 hint
      obtain ⟨y, hread, hnearest⟩ := exists_readFloat_of_readInt64 hint
      rw [h] at hread
      obtain rfl := Option.some.inj hread
      refine .inl ⟨n, hfits, ?_, hnearest.stands hfits⟩
      simp only [toIntegerForm, hint]
    | none =>
      right
      simp only [toIntegerForm, hint, h]
  | _ => cases h

/-- An integer column takes for the same what is an integer between the ends of 64 bits. -/
theorem sameFor_toIntegerForm (htype : type.family = .integer) (hnull : v ≠ .null) :
    sameFor type v v.toIntegerForm = true ↔ ∃ x, v.toFloat? = some x ∧ IsWhole64 x := by
  have hint {n : Int} (hn : fitsInt64 n) : (ofInt n).toFloat? = some (floatOfInt n) := by
    rw [fitsInt64_iff, int64Min, int64Max] at hn
    rw [ofInt, toFloat?, Int64.toInt_ofInt_of_le (by omega) (by omega)]
  cases hx : v.toFloat? with
  | none =>
    rw [sameFor_of_toFloat?_eq_none (.inl htype) hx
      (v.isCanonical_toIntegerForm.isNumeric (.inl rfl)) hnull]
    simp
  | some x =>
    simp only [Option.some.injEq, exists_eq_left']
    rcases toIntegerForm_cases hx with ⟨n, hfits, hform, hstands⟩ | hform
    · rw [hform, sameFor_numbers (.inl htype) hx (hint hfits)]
      exact iff_of_true ((hstands.beq_iff (stands_floatOfInt_of_fits hfits)).2 rfl)
        ((isWhole64_iff hstands).2 (natAbs_nearestInt_le hfits))
    · rw [hform]
      split
      · next hwhole =>
        rw [sameFor_numbers (.inl htype) hx (hint (toInt64Clamped_fits x)), beq_clamped_iff hwhole]
      · next hwhole =>
        rw [sameFor_null_right type hnull]
        exact iff_of_false Bool.false_ne_true fun h => hwhole h.isIntegral

/-! ### Doubles -/

theorem toFloatForm_of_toFloat? {x : Float} (h : v.toFloat? = some x) :
    v.toFloatForm = .float x := by
  cases v with
  | int32 n | int64 n | float y =>
    obtain rfl := Option.some.inj h
    rfl
  | text s =>
    change readFloat (trimChars s.toList) = some x at h
    have hsame : (trimChars s.toList).map (fun c => if c = ',' then '.' else c) =
        trimChars s.toList := by
      refine (List.map_congr_left fun c hc => ?_).trans (List.map_id _)
      have hne : c ≠ ',' := by
        rintro rfl
        exact comma_not_mem_of_readFloat h hc
      exact if_neg hne
    simp only [toFloatForm, hsame, h]
  | _ => cases h

/-- A column of doubles takes for the same what is read as a number. -/
theorem sameFor_toFloatForm (htype : type.family = .float) (hnull : v ≠ .null) :
    sameFor type v v.toFloatForm = true ↔ ∃ x, v.toFloat? = some x ∧ shape x ≠ .nan := by
  cases hx : v.toFloat? with
  | none =>
    rw [sameFor_of_toFloat?_eq_none (.inr htype) hx
      (v.isCanonical_toFloatForm.isNumeric (.inr rfl)) hnull]
    simp
  | some x =>
    rw [toFloatForm_of_toFloat? hx, sameFor_numbers (.inr htype) hx rfl, beq_self_iff]
    simp

/-! ### Moments and times of day -/

theorem toTimestamp?_now : (text now).toTimestamp? = none := by
  decide +kernel

theorem toTime?_now : (text now).toTime? = none := by
  decide +kernel

theorem sameFor_now (htype : keepsNow type.family = true) (hnow : v.isNow = true) :
    sameFor type v (text now) = true ↔ v = text now := by
  cases v with
  | text s =>
    have hsame : ((text s : Value) == text now) = true ↔ text s = text now := by
      change (s == now) = true ↔ _
      rw [beq_iff_eq, Value.text.injEq]
    have hnull : (text s).isNull = false ∧ (text now).isNull = false := ⟨rfl, rfl⟩
    rw [← hsame]
    cases hfamily : type.family with
    | dateTime | date =>
      simp only [sameFor, hnull, hfamily, toTimestamp?_now, Bool.or_self, Bool.false_eq_true,
        if_false]
      cases (text s).toTimestamp? <;> rfl
    | time =>
      simp only [sameFor, hnull, hfamily, toTime?_now, Bool.or_self, Bool.false_eq_true, if_false]
      cases (text s).toTime? <;> rfl
    | _ =>
      rw [hfamily] at htype
      cases htype
  | _ => cases hnow

/-- A column of moments takes for the same what is read as a moment. -/
theorem sameFor_timestamp (htype : type.family = .dateTime) (hnull : v ≠ .null) :
    sameFor type v ((v.toTimestamp?.map Value.timestamp).getD .null) = true ↔
      ∃ t, v.toTimestamp? = some t := by
  cases hread : v.toTimestamp? with
  | none => simp [sameFor_null_right type hnull]
  | some t =>
    have hform : (Value.timestamp t).toTimestamp? = some t := by
      rw [toTimestamp?, Timestamp.wholeSecond, TimeOfDay.wholeSecond_eq (nano_toTimestamp? hread)]
    simp [sameFor, isNull, htype, hread, hform]

/-- A column of dates takes for the same what is read as a moment of the date. -/
theorem sameFor_date (htype : type.family = .date) (hnull : v ≠ .null) :
    sameFor type v ((v.toTimestamp?.map fun t => Value.date t.date).getD .null) = true ↔
      ∃ t, v.toTimestamp? = some t := by
  cases hread : v.toTimestamp? with
  | none => simp [sameFor_null_right type hnull]
  | some t =>
    have hform : (Value.date t.date).toTimestamp? = some (Timestamp.atMidnight t.date) := rfl
    simp [sameFor, isNull, htype, hread, hform, Timestamp.atMidnight]

/-- A column of times takes for the same what is read as a time of day in whole seconds. -/
theorem sameFor_time (htype : type.family = .time) (hnull : v ≠ .null) :
    sameFor type v ((v.toTime?.map Value.time).getD .null) = true ↔
      (∃ t, v.toTime? = some t) ∧ ¬ v.ShowsLeapSecond := by
  cases hread : v.toTime? with
  | none => simp [sameFor_null_right type hnull]
  | some t =>
    have hform : (Value.time t).toTime? = some t.wholeSecond := rfl
    have hsame : sameFor type v (Value.time t) = (t == t.wholeSecond) := by
      simp [sameFor, isNull, htype, hread, hform]
    have hwhole : t = t.wholeSecond ↔ t.nano = 0 :=
      ⟨fun h => congrArg TimeOfDay.nano h, fun h => (TimeOfDay.wholeSecond_eq h).symm⟩
    have hleap := nano_toTime? hread
    rw [Option.map_some, Option.getD_some, hsame, beq_iff_eq, hwhole, ← hleap, not_not]
    exact ⟨fun h => ⟨⟨t, rfl⟩, h⟩, fun h => h.2⟩

/-! ### The other families -/

theorem sameFor_asIs (htype : type.family = .text ∨ type.family = .json ∨ type.family = .uuid ∨
    type.family = .binary) (hnull : v ≠ .null) {w : Value} (hw : w ≠ .null) :
    sameFor type v w = v.equal w := by
  rcases htype with htype | htype | htype | htype <;>
    simp [sameFor, isNull_eq_false hnull, isNull_eq_false hw, htype] <;> rfl

theorem sameFor_display (htype : type.family = .text) (hnull : v ≠ .null) :
    sameFor type v (.text v.display) = true ↔ ∃ s, v = .text s := by
  rw [sameFor_asIs (.inl htype) hnull (by simp)]
  cases v with
  | text s => exact iff_of_true (equal_self trivial) ⟨s, rfl⟩
  | _ => exact iff_of_false Bool.false_ne_true (by simp)

theorem sameFor_toJsonForm (htype : type.family = .json) (hproper : v.IsProper)
    (hnull : v ≠ .null) : sameFor type v v.toJsonForm = true ↔ ∃ j, v = .json j := by
  have hform : v.toJsonForm ≠ .null := by cases v <;> simp [toJsonForm]
  rw [sameFor_asIs (.inr (.inl htype)) hnull hform]
  cases v with
  | json j => exact iff_of_true (equal_self hproper) ⟨j, rfl⟩
  | _ => exact iff_of_false Bool.false_ne_true (by simp)

theorem sameFor_toUuidForm (htype : type.family = .uuid) (hnull : v ≠ .null) :
    sameFor type v v.toUuidForm = true ↔ ∃ u, v = .uuid u := by
  have hnone : sameFor type v .null ≠ true := Bool.eq_false_iff.1 (sameFor_null_right type hnull)
  cases v with
  | uuid u =>
    rw [toUuidForm, sameFor_asIs (.inr (.inr (.inl htype))) hnull hnull]
    exact iff_of_true (equal_self trivial) ⟨u, rfl⟩
  | text s =>
    refine iff_of_false ?_ (by simp)
    rw [toUuidForm]
    split
    · rw [sameFor_asIs (.inr (.inr (.inl htype))) hnull (by simp)]
      exact Bool.false_ne_true
    · exact hnone
  | _ => exact iff_of_false hnone (by simp)

/-! ### All families -/

theorem sameFor_coerce_of_ne_null (type : SqlType) (hproper : v.IsProper) (hnull : v ≠ .null) :
    sameFor type v (coerce type .passThrough v) = true ↔ v.KeptBy type.family := by
  rw [coerce, isNull_eq_false hnull, if_neg Bool.false_ne_true]
  split
  · next hrequest =>
    obtain ⟨hnow, hkeeps⟩ := Bool.and_eq_true_iff.1 hrequest
    rw [sameFor_now hkeeps hnow]
    cases hfamily : type.family with
    | dateTime | date | time => rw [KeptBy, if_pos hnow]
    | _ =>
      rw [hfamily] at hkeeps
      cases hkeeps
  · next hrequest =>
    have hnow (hkeeps : keepsNow type.family = true) : ¬ v.isNow = true := fun hnow =>
      hrequest (Bool.and_eq_true_iff.2 ⟨hnow, hkeeps⟩)
    cases hfamily : type.family with
    | integer => exact sameFor_toIntegerForm hfamily hnull
    | float => exact sameFor_toFloatForm hfamily hnull
    | boolean =>
      refine iff_of_true ?_ trivial
      simp [sameFor, isNull, hfamily, isEmpty]
    | text => exact sameFor_display hfamily hnull
    | dateTime =>
      rw [KeptBy, if_neg (hnow (hfamily ▸ rfl))]
      exact sameFor_timestamp hfamily hnull
    | date =>
      rw [KeptBy, if_neg (hnow (hfamily ▸ rfl))]
      exact sameFor_date hfamily hnull
    | time =>
      rw [KeptBy, if_neg (hnow (hfamily ▸ rfl))]
      exact sameFor_time hfamily hnull
    | json => exact sameFor_toJsonForm hfamily hproper hnull
    | uuid => exact sameFor_toUuidForm hfamily hnull
    | binary =>
      dsimp only
      rw [sameFor_asIs (.inr (.inr (.inr hfamily))) hnull hnull]
      exact iff_of_true (equal_self hproper) trivial

/-- A column takes a value for the same as its form just when the value is null or one that its
family keeps. -/
theorem sameFor_coerce_iff (type : SqlType) (hproper : v.IsProper) :
    sameFor type v (coerce type .passThrough v) = true ↔ v = .null ∨ v.KeptBy type.family := by
  by_cases hnull : v = .null
  · subst hnull
    exact iff_of_true rfl (.inl rfl)
  · rw [sameFor_coerce_of_ne_null type hproper hnull]
    exact (or_iff_right hnull).symm

end Value

end RowMapper
