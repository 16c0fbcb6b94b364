import RowMapper.Value.Coercion
import RowMapper.Proofs.Calendar.WrittenItems

/-! # Canonical forms

What a column's type makes of a value is in the form of the type, and a value in that form is
made into itself. One text escapes this: a time column reads `10:30:60` as a leap second, while
a time of day that is a leap second becomes the second before it.
-/

namespace RowMapper

namespace Calendar

/-! ## Numbers that a pattern leaves alone -/

namespace PatternItem

variable {f : PatternItem} {p q : Parts} {cs rest : List Char}

/-- Reading an item changes its own number only. -/
theorem read_eq_copy (hf : f ≠ .fraction) (h : f.read p cs = some (q, rest)) :
    q = f.copy q p := by
  have hnumber {α : Type} {o : Option (α × List Char)} {g : α → Parts}
      (ho : (o.map fun (n, rest) => (g n, rest)) = some (q, rest)) : ∃ n, g n = q := by
    obtain ⟨⟨n, _⟩, -, heq⟩ := Option.map_eq_some_iff.1 ho
    exact ⟨n, congrArg Prod.fst heq⟩
  cases f with
  | fraction => exact absurd rfl hf
  | space => exact (congrArg Prod.fst (Option.some.inj h)).symm
  | literal c =>
    simp only [read] at h
    split at h
    · split at h
      · exact (congrArg Prod.fst (Option.some.inj h)).symm
      · cases h
    · cases h
  | year =>
    obtain ⟨n, rfl⟩ := hnumber (g := fun n => { p with year := n }) h
    rfl
  | month =>
    obtain ⟨n, rfl⟩ := hnumber (g := fun n => { p with month := n }) h
    rfl
  | day =>
    obtain ⟨n, rfl⟩ := hnumber (g := fun n => { p with day := n }) h
    rfl
  | hour =>
    obtain ⟨n, rfl⟩ := hnumber (g := fun n => { p with hour := n }) h
    rfl
  | minute =>
    obtain ⟨n, rfl⟩ := hnumber (g := fun n => { p with minute := n }) h
    rfl
  | second =>
    obtain ⟨n, rfl⟩ := hnumber (g := fun n => { p with second := n }) h
    rfl

end PatternItem

/-- What no item of a pattern changes is as before. -/
theorem readItems_keeps {α : Type} (g : Parts → α) {pattern : List PatternItem} {p q : Parts}
    {cs : List Char} (hfraction : .fraction ∉ pattern)
    (hg : ∀ f ∈ pattern, ∀ q p, g (f.copy q p) = g p) (h : readItems pattern p cs = some q) :
    g q = g p := by
  induction pattern generalizing p cs with
  | nil =>
    cases cs with
    | nil => exact congrArg g (Option.some.inj h).symm
    | cons c cs => cases h
  | cons f fs ih =>
    obtain ⟨⟨p', rest⟩, hread, hrest⟩ := Option.bind_eq_some_iff.1 h
    rw [List.mem_cons, not_or] at hfraction
    have hone := PatternItem.read_eq_copy (Ne.symm hfraction.1) hread
    rw [ih hfraction.2 (fun f hf => hg f (List.mem_cons_of_mem _ hf)) hrest, hone]
    exact hg f List.mem_cons_self _ _

theorem nano_of_clock {p : Parts} {cs : List Char} (h : readItems clock {} cs = some p) :
    p.nano = 0 :=
  readItems_keeps Parts.nano (by decide)
    (by simp [clock, hourMinute, PatternItem.copy]) h

theorem second_of_hourMinute {p : Parts} {cs : List Char}
    (h : readItems hourMinute {} cs = some p) : p.second = 0 ∧ p.nano = 0 :=
  ⟨readItems_keeps Parts.second (by decide) (by simp [hourMinute, PatternItem.copy]) h,
    readItems_keeps Parts.nano (by decide) (by simp [hourMinute, PatternItem.copy]) h⟩

/-! ## Whole seconds -/

theorem TimeOfDay.ofParts?_eq_some {hour minute second nano : Nat} {t : TimeOfDay}
    (h : ofParts? hour minute second nano = some t) :
    t.hour = hour ∧ t.minute = minute ∧ t.second = second ∧ t.nano = nano := by
  unfold ofParts? at h
  split at h
  · obtain rfl := Option.some.inj h
    exact ⟨rfl, rfl, rfl, rfl⟩
  · cases h

/-- The numbers show the second after second 59 of an hour and a minute. -/
def Parts.IsLeap (p : Parts) : Prop := p.hour < 24 ∧ p.minute < 60 ∧ p.second = 60

variable {p : Parts} {t : TimeOfDay}

/-- Without a fraction only a leap second has nanoseconds. -/
theorem Parts.nano_time? (hp : p.nano = 0) (h : p.time? = some t) : t.nano ≠ 0 ↔ p.IsLeap := by
  unfold time? at h
  by_cases hleap : p.second = 60
  · rw [if_pos hleap] at h
    obtain ⟨hhour, hminute, -, hnano⟩ := TimeOfDay.ofParts?_eq_some h
    have := t.hour_lt
    have := t.minute_lt
    exact iff_of_true (by omega) ⟨by omega, by omega, hleap⟩
  · rw [if_neg hleap] at h
    obtain ⟨-, -, -, hnano⟩ := TimeOfDay.ofParts?_eq_some h
    exact iff_of_false (by omega) fun hp => hleap hp.2.2

theorem Parts.exists_time? (hp : p.nano = 0) (h : p.IsLeap) : ∃ t, p.time? = some t := by
  obtain ⟨hhour, hminute, hsecond⟩ := h
  rw [time?, if_pos hsecond, TimeOfDay.ofParts?,
    dif_pos ⟨hhour, hminute, by decide, by omega⟩]
  exact ⟨_, rfl⟩

end Calendar

namespace Value

open Calendar Text

/-! ## Moments and times of day -/

theorem nano_ofEpoch {n : Int} {t : Timestamp} (h : ofEpoch n = some t) : t.time.nano = 0 := by
  obtain ⟨d, -, rfl⟩ := Option.map_eq_some_iff.1 h
  rfl

theorem nano_readTimestamp {cs : List Char} {t : Timestamp} (h : readTimestamp cs = some t) :
    t.time.nano = 0 := by
  unfold readTimestamp at h
  split at h
  · cases h
  split at h
  · obtain ⟨n, -, hepoch⟩ := Option.bind_eq_some_iff.1 h
    exact nano_ofEpoch hepoch
  split at h
  · exact Option.some.inj h ▸ rfl
  split at h
  · exact Option.some.inj h ▸ rfl
  · obtain ⟨d, -, rfl⟩ := Option.map_eq_some_iff.1 h
    rfl

theorem nano_toTimestamp? {v : Value} {t : Timestamp} (h : v.toTimestamp? = some t) :
    t.time.nano = 0 := by
  cases v with
  | timestamp s => exact Option.some.inj h ▸ rfl
  | date d => exact Option.some.inj h ▸ rfl
  | int32 n => exact nano_ofEpoch h
  | int64 n => exact nano_ofEpoch h
  | float x =>
    simp only [toTimestamp?] at h
    split at h
    · exact nano_ofEpoch h
    · cases h
  | text s => exact nano_readTimestamp h
  | _ => cases h

/-- A text that a time column reads as a leap second. -/
def ShowsLeapSecond : Value → Prop
  | .text s => ∃ p, readItems clock {} (trimChars s.toList) = some p ∧ p.IsLeap
  | _ => False

/-- A text with a leap second is the one value whose time of day has nanoseconds. -/
theorem nano_toTime? {v : Value} {t : TimeOfDay} (h : v.toTime? = some t) :
    t.nano ≠ 0 ↔ v.ShowsLeapSecond := by
  cases v with
  | time s => exact iff_of_false (not_not_intro (Option.some.inj h ▸ rfl)) id
  | timestamp s => exact iff_of_false (not_not_intro (Option.some.inj h ▸ rfl)) id
  | text s =>
    simp only [toTime?] at h
    cases hclock : (readItems clock {} (trimChars s.toList)).bind Parts.time? with
    | some u =>
      rw [hclock] at h
      obtain rfl := Option.some.inj h
      obtain ⟨p, hread, htime⟩ := Option.bind_eq_some_iff.1 hclock
      rw [Parts.nano_time? (nano_of_clock hread) htime, ShowsLeapSecond, hread]
      simp
    | none =>
      rw [hclock] at h
      have hnot : ¬ (Value.text s).ShowsLeapSecond := by
        rintro ⟨p, hread, hleap⟩
        obtain ⟨u, htime⟩ := Parts.exists_time? (nano_of_clock hread) hleap
        rw [hread, Option.bind_some, htime] at hclock
        cases hclock
      refine iff_of_false (not_not_intro ?_) hnot
      cases hminute : (readItems hourMinute {} (trimChars s.toList)).bind Parts.time? with
      | some u =>
        rw [hminute] at h
        obtain rfl := Option.some.inj h
        obtain ⟨p, hread, htime⟩ := Option.bind_eq_some_iff.1 hminute
        obtain ⟨hsecond, hnano⟩ := second_of_hourMinute hread
        by_contra hne
        have hleap := ((Parts.nano_time? hnano htime).1 hne).2.2
        omega
      | none =>
        rw [hminute] at h
        obtain ⟨u, hread, rfl⟩ := Option.map_eq_some_iff.1 h
        exact nano_readTimestamp hread
  | _ => cases h

theorem ShowsLeapSecond.exists_toTime? {v : Value} (h : v.ShowsLeapSecond) :
    ∃ t, v.toTime? = some t := by
  cases v with
  | text s =>
    obtain ⟨p, hread, hleap⟩ := h
    obtain ⟨t, htime⟩ := Parts.exists_time? (nano_of_clock hread) hleap
    refine ⟨t, ?_⟩
    simp only [toTime?, hread, Option.bind_some, htime]
  | _ => exact h.elim

theorem not_isDigit_of_isUpper {c : Char} (h : c.isUpper = true) :
    c.isDigit = false ∧ isBlank c = false := by
  have hcode : 'A'.val.toNat ≤ c.val.toNat ∧ c.val.toNat ≤ 'Z'.val.toNat := by
    simpa [Char.isUpper, UInt32.le_iff_toNat_le] using h
  change 65 ≤ c.toNat ∧ c.toNat ≤ 90 at hcode
  constructor
  · rw [Bool.eq_false_iff, Ne, Char.isDigit_iff_toNat]
    rintro ⟨-, hnine⟩
    change c.toNat ≤ 57 at hnine
    omega
  · simp only [isBlank, Bool.or_eq_false_iff, Bool.and_eq_false_iff, beq_eq_false_iff_ne,
      decide_eq_false_iff_not]
    omega

theorem not_isDigit_of_toLower {c : Char} (h : c.toLower = 'n') :
    c.isDigit = false ∧ isBlank c = false := by
  by_cases hupper : c.isUpper = true
  · exact not_isDigit_of_isUpper hupper
  · rw [Char.toLower_eq_of_not_isUpper hupper] at h
    subst h
    decide

/-- The request for the current time begins with a letter, a clock with a digit. -/
theorem ShowsLeapSecond.isNow_eq {v : Value} (h : v.ShowsLeapSecond) : v.isNow = false := by
  cases v with
  | text s =>
    obtain ⟨p, hread, -⟩ := h
    by_contra hnow
    rw [Bool.not_eq_false] at hnow
    rw [isNow, sameIgnoringAsciiCase, beq_iff_eq, lowerAscii, lowerAscii, toList_trim] at hnow
    have hlower := String.ofList_injective hnow
    cases htrim : trimChars s.toList with
    | nil =>
      rw [htrim] at hlower
      cases hlower
    | cons c cs =>
      rw [htrim] at hlower hread
      have hfirst : c.toLower = 'n' := (List.cons.inj hlower).1
      obtain ⟨hdigit, hblank⟩ := not_isDigit_of_toLower hfirst
      obtain ⟨⟨q, rest⟩, hhour, -⟩ := Option.bind_eq_some_iff.1 hread
      have hnone : PatternItem.read {} .hour (c :: cs) = none := by
        simp [PatternItem.read, readDigits, hblank, hdigit]
      rw [hnone] at hhour
      cases hhour
  | _ => exact h.elim

/-! ## The form of a type -/

inductive IsCanonical : TypeFamily → Value → Prop
  | null (family : TypeFamily) : IsCanonical family .null
  | now {family : TypeFamily} (h : keepsNow family = true) : IsCanonical family (.text now)
  | int64 (n : Int64) : IsCanonical .integer (.int64 n)
  | float (x : Float) : IsCanonical .float (.float x)
  | bool (b : Bool) : IsCanonical .boolean (.bool b)
  | text (s : String) : IsCanonical .text (.text s)
  | timestamp {t : Timestamp} (h : t.time.nano = 0) : IsCanonical .dateTime (.timestamp t)
  | date (d : Date) : IsCanonical .date (.date d)
  | time {t : TimeOfDay} (h : t.nano = 0) : IsCanonical .time (.time t)
  | json (j : Json) : IsCanonical .json (.json j)
  | uuid (u : Uuid) : IsCanonical .uuid (.uuid u)
  | binary (v : Value) : IsCanonical .binary v

variable {type : SqlType} {v : Value}

theorem IsCanonical.coerce_eq (h : IsCanonical type.family v) :
    coerce type .passThrough v = v := by
  generalize hfamily : type.family = family at h
  cases h with
  | null => rfl
  | now hkeeps =>
    have hnow : (Value.text Value.now).isNow = true := by decide
    simp [coerce, isNull, hfamily, hkeeps, hnow]
  | int64 n => simp [coerce, isNull, isNow, hfamily, toIntegerForm]
  | float x => simp [coerce, isNull, isNow, hfamily, toFloatForm, toFloat?]
  | bool b => simp [coerce, isNull, isNow, hfamily, isEmpty]
  | text s => simp [coerce, isNull, keepsNow, hfamily, display, ImportFilter.passThrough]
  | timestamp hnano =>
    simp [coerce, isNull, isNow, hfamily, toTimestamp?, Timestamp.wholeSecond,
      TimeOfDay.wholeSecond_eq hnano]
  | date d => simp [coerce, isNull, isNow, hfamily, toTimestamp?, Timestamp.atMidnight]
  | time hnano =>
    simp [coerce, isNull, isNow, hfamily, toTime?, TimeOfDay.wholeSecond_eq hnano]
  | json j => simp [coerce, isNull, isNow, hfamily, toJsonForm, toJson]
  | uuid u => simp [coerce, isNull, isNow, hfamily, toUuidForm]
  | binary v => cases v <;> simp [coerce, isNull, keepsNow, hfamily]

theorem isCanonical_toIntegerForm (v : Value) : IsCanonical .integer v.toIntegerForm := by
  have hwhole (x : Float) : IsCanonical .integer
      (if Decimal.isIntegral x then ofInt (Decimal.toInt64Clamped x) else .null) := by
    split
    · exact .int64 _
    · exact .null _
  cases v with
  | int32 n => exact .int64 _
  | int64 n => exact .int64 n
  | bool b => exact .int64 _
  | float x => exact hwhole x
  | text s =>
    simp only [toIntegerForm]
    split
    · exact .int64 _
    · split
      · exact hwhole _
      · exact .null _
  | _ => exact .null _

theorem isCanonical_toFloatForm (v : Value) : IsCanonical .float v.toFloatForm := by
  unfold toFloatForm
  split
  · dsimp only
    split
    · exact .float _
    · exact .null _
  · exact .float _
  · split
    · exact .float _
    · exact .null _

theorem isCanonical_toUuidForm (v : Value) : IsCanonical .uuid v.toUuidForm := by
  unfold toUuidForm
  split
  · exact .uuid _
  · split
    · exact .uuid _
    · exact .null _
  · exact .null _

/-- What a type makes of a value is in its form, a leap second in a time column apart. -/
theorem isCanonical_coerce (h : type.family = .time → ¬ v.ShowsLeapSecond) :
    IsCanonical type.family (coerce type .passThrough v) := by
  unfold coerce
  split
  · exact .null _
  split
  · next hnow => exact .now (Bool.and_eq_true_iff.1 hnow).2
  cases hfamily : type.family with
  | integer => exact v.isCanonical_toIntegerForm
  | float => exact v.isCanonical_toFloatForm
  | boolean => exact .bool _
  | text => exact .text _
  | dateTime =>
    cases htime : v.toTimestamp? with
    | none => exact .null _
    | some t => exact .timestamp (nano_toTimestamp? htime)
  | date =>
    cases htime : v.toTimestamp? with
    | none => exact .null _
    | some t => exact .date _
  | time =>
    cases htime : v.toTime? with
    | none => exact .null _
    | some t => exact .time (not_not.1 (mt (nano_toTime? htime).1 (h hfamily)))
  | json => cases v <;> exact .json _
  | uuid => exact v.isCanonical_toUuidForm
  | binary => exact .binary _

/-- A time column keeps the nanoseconds of a leap second that it reads from a text. -/
theorem ShowsLeapSecond.coerce_eq (h : v.ShowsLeapSecond) (htime : type.family = .time) :
    ∃ t : TimeOfDay, coerce type .passThrough v = .time t ∧ t.nano ≠ 0 := by
  obtain ⟨t, hread⟩ := h.exists_toTime?
  refine ⟨t, ?_, (nano_toTime? hread).2 h⟩
  have hnull : v.isNull = false := by
    cases v with
    | null => exact h.elim
    | _ => rfl
  simp [coerce, hnull, h.isNow_eq, htime, hread]

/-- Bringing a value into the form of a type a second time changes nothing, just when it is no
text with a leap second for a time column. -/
theorem coerce_coerce_iff (type : SqlType) (v : Value) :
    coerce type .passThrough (coerce type .passThrough v) = coerce type .passThrough v ↔
      ¬ (type.family = .time ∧ v.ShowsLeapSecond) := by
  constructor
  · rintro hsame ⟨htime, hleap⟩
    obtain ⟨t, hfirst, hnano⟩ := hleap.coerce_eq htime
    have hsecond : coerce type .passThrough (.time t) = .time t.wholeSecond := by
      simp [coerce, isNull, isNow, htime, toTime?]
    rw [hfirst, hsecond] at hsame
    exact hnano (congrArg TimeOfDay.nano (Value.time.inj hsame)).symm
  · intro h
    exact (isCanonical_coerce fun htime hleap => h ⟨htime, hleap⟩).coerce_eq

def leapSample : TimeOfDay := { hour := 10, minute := 30, second := 59, nano := 1000000000 }

/-- The form of `10:30:60` has another form. -/
theorem leapSample_changes :
    coerce .time .passThrough (.text "10:30:60") = .time leapSample ∧
      coerce .time .passThrough (.time leapSample) = .time leapSample.wholeSecond ∧
      leapSample.wholeSecond ≠ leapSample := by
  have hread : (Value.text "10:30:60").toTime? = some leapSample := by decide +kernel
  have hnow : (Value.text "10:30:60").isNow = false := by decide +kernel
  refine ⟨?_, rfl, by decide⟩
  simp [coerce, isNull, hnow, SqlType.family, hread]

end Value

end RowMapper
