import RowMapper.Calendar.Pattern
import Mathlib

/-! # Written dates and times read back

What the items of a pattern write is read by them as the numbers that were written, when each
item ends where the next one begins. So a date is known from its text, and of a time the text
tells the hour, the minute and the second that are shown.
-/

namespace RowMapper.Calendar

open Text Decimal

/-! ## Padded numbers -/

theorem foldDigits_eq_ofDigitChars (cs : List Char) (n : Nat) :
    foldDigits n cs = Nat.ofDigitChars 10 cs n := by
  induction cs generalizing n with
  | nil => rfl
  | cons c cs ih =>
    rw [Nat.ofDigitChars_cons, ← ih, Nat.mul_comm]
    rfl

theorem padded_eq (width n : Nat) : padded width n =
    List.replicate (width - (Nat.toDigits 10 n).length) '0' ++ Nat.toDigits 10 n := by
  rw [padded, Nat.toString_eq_repr, Nat.toList_repr]

theorem isDigit_of_mem_padded {width n : Nat} {c : Char} (h : c ∈ padded width n) :
    c.isDigit = true := by
  rw [padded_eq, List.mem_append] at h
  rcases h with h | h
  · rw [List.eq_of_mem_replicate h]
    decide
  · exact Nat.isDigit_of_mem_toDigits (by decide) (by decide) h

theorem foldDigits_padded (width n : Nat) : foldDigits 0 (padded width n) = n := by
  rw [foldDigits_eq_ofDigitChars, padded_eq, Nat.ofDigitChars_append,
    Nat.ofDigitChars_replicate_zero, Nat.mul_zero, Nat.ofDigitChars_ten_toDigits]

theorem padded_ne_nil (width n : Nat) : padded width n ≠ [] := by
  rw [padded_eq]
  exact List.append_ne_nil_of_right_ne_nil _ Nat.toDigits_ne_nil

theorem length_padded {width n : Nat} (hwidth : 0 < width) (h : n < 10 ^ width) :
    (padded width n).length = width := by
  have hlength := (Nat.length_toDigits_le_iff (b := 10) (by decide) hwidth).2 h
  rw [padded_eq, List.length_append, List.length_replicate]
  omega

theorem takeWhile_padded_append (width n : Nat) (rest : List Char) :
    (padded width n ++ rest).takeWhile Char.isDigit =
      padded width n ++ rest.takeWhile Char.isDigit :=
  List.takeWhile_append_of_pos fun _ hc => isDigit_of_mem_padded hc

/-- A number of full width is read whatever follows. -/
theorem readDigits_padded {width n : Nat} (hwidth : 0 < width) (h : n < 10 ^ width)
    (rest : List Char) : readDigits width (padded width n ++ rest) = some (n, rest) := by
  have hlength := length_padded hwidth h
  have htake : ((padded width n ++ rest).takeWhile Char.isDigit).take width = padded width n := by
    rw [takeWhile_padded_append, List.take_left' hlength]
  unfold readDigits
  dsimp only
  rw [htake, foldDigits_padded, List.drop_left' rfl]
  simp [padded_ne_nil]

def NoDigit (rest : List Char) : Prop := ∀ c ∈ rest.head?, c.isDigit = false

theorem NoDigit.takeWhile {rest : List Char} (h : NoDigit rest) :
    rest.takeWhile Char.isDigit = [] := by
  cases rest with
  | nil => rfl
  | cons c rest => exact List.takeWhile_cons_of_neg (by simp [h c rfl])

theorem NoDigit.dropWhile {rest : List Char} (h : NoDigit rest) :
    rest.dropWhile Char.isDigit = rest := by
  cases rest with
  | nil => rfl
  | cons c rest => exact List.dropWhile_cons_of_neg (by simp [h c rfl])

theorem readAllDigits_padded (width n : Nat) {rest : List Char} (h : NoDigit rest) :
    readAllDigits (padded width n ++ rest) = some (n, rest) := by
  have htake : ((padded width n ++ rest).takeWhile Char.isDigit).take
      (padded width n ++ rest).length = padded width n := by
    rw [takeWhile_padded_append, h.takeWhile, List.append_nil]
    exact List.take_of_length_le (by simp)
  unfold readAllDigits readDigits
  dsimp only
  rw [htake, foldDigits_padded, List.drop_left' rfl]
  simp [padded_ne_nil]

theorem isBlank_of_isDigit {c : Char} (h : c.isDigit = true) : isBlank c = false := by
  rw [Char.isDigit_iff_toNat] at h
  change 48 ≤ c.toNat ∧ c.toNat ≤ 57 at h
  simp only [isBlank, Bool.or_eq_false_iff, Bool.and_eq_false_iff, beq_eq_false_iff_ne,
    decide_eq_false_iff_not]
  omega

/-- No blanks are skipped before a number. -/
theorem dropWhile_padded (width n : Nat) (rest : List Char) :
    (padded width n ++ rest).dropWhile isBlank = padded width n ++ rest := by
  cases hpadded : padded width n with
  | nil => exact absurd hpadded (padded_ne_nil width n)
  | cons c cs =>
    have hc := isBlank_of_isDigit (isDigit_of_mem_padded (hpadded ▸ List.mem_cons_self))
    exact List.dropWhile_cons_of_neg (by simp [hc])

/-! ## Years and fractions -/

theorem exists_yearChars (year : Int) : ∃ c cs, yearChars year = c :: cs ∧ isBlank c = false := by
  unfold yearChars
  split
  · cases hpadded : padded 4 year.toNat with
    | nil => exact absurd hpadded (padded_ne_nil 4 _)
    | cons c cs =>
      exact ⟨c, cs, rfl, isBlank_of_isDigit (isDigit_of_mem_padded (hpadded ▸ List.mem_cons_self))⟩
  · exact ⟨_, _, rfl, by split <;> decide⟩

theorem readYear_yearChars (year : Int) {rest : List Char} (h : NoDigit rest) :
    readYear (yearChars year ++ rest) = some (year, rest) := by
  unfold yearChars
  split
  · next hrange =>
    have hyear : year.toNat < 10 ^ 4 := by omega
    have hread := readDigits_padded (by decide) hyear rest
    have hcast : (year.toNat : Int) = year := Int.toNat_of_nonneg hrange.1
    cases hpadded : padded 4 year.toNat with
    | nil => exact absurd hpadded (padded_ne_nil 4 _)
    | cons c cs =>
      have hc : c.isDigit = true := isDigit_of_mem_padded (hpadded ▸ List.mem_cons_self)
      rw [hpadded, List.cons_append] at hread
      rw [List.cons_append]
      unfold readYear
      -- A digit is no sign.
      split
      · next hsign =>
        obtain rfl := (List.cons.inj hsign).1
        exact absurd hc (by decide)
      · next hsign =>
        obtain rfl := (List.cons.inj hsign).1
        exact absurd hc (by decide)
      · rw [hread, Option.map_some]
        dsimp only
        rw [hcast]
  · next hrange =>
    split
    · next hneg =>
      have hcast : -(year.natAbs : Int) = year := by omega
      rw [List.cons_append, readYear, readAllDigits_padded 4 _ h, Option.map_some]
      dsimp only
      rw [hcast]
    · next hneg =>
      have hcast : (year.natAbs : Int) = year := by omega
      rw [List.cons_append, readYear, readAllDigits_padded 4 _ h, Option.map_some]
      dsimp only
      rw [hcast]

theorem readNanos_padded {places n : Nat} (hplaces : 0 < places) (hle : places ≤ 9)
    (h : n < 10 ^ places) {rest : List Char} (hrest : NoDigit rest) :
    readNanos (padded places n ++ rest) = some (n * 10 ^ (9 - places), rest) := by
  have hlength := length_padded hplaces h
  have htake : (padded places n ++ rest).takeWhile Char.isDigit = padded places n := by
    rw [takeWhile_padded_append, hrest.takeWhile, List.append_nil]
  have hdrop : (padded places n ++ rest).dropWhile Char.isDigit = rest := by
    rw [List.dropWhile_append_of_pos fun _ hc => isDigit_of_mem_padded hc, hrest.dropWhile]
  unfold readNanos
  dsimp only
  rw [htake, hdrop, List.take_of_length_le (by omega), foldDigits_padded, hlength]
  simp [padded_ne_nil]

/-! ## Items of a pattern -/

/-- The numbers have as many digits as their items write. -/
structure Parts.Fits (q : Parts) : Prop where
  month : q.month < 100
  day : q.day < 100
  hour : q.hour < 100
  minute : q.minute < 100
  second : q.second < 100
  nano : q.nano < 1000000000

namespace PatternItem

def copy (q p : Parts) : PatternItem → Parts
  | .year => { p with year := q.year }
  | .month => { p with month := q.month }
  | .day => { p with day := q.day }
  | .hour => { p with hour := q.hour }
  | .minute => { p with minute := q.minute }
  | .second => { p with second := q.second }
  | .fraction => if q.nano = 0 then p else { p with nano := q.nano }
  | .literal _ | .space => p

/-- A text does not go on with what an item writes. -/
def Stops : PatternItem → List Char → Prop
  | .year, rest => NoDigit rest
  | .fraction, rest => NoDigit rest ∧ rest.head? ≠ some '.'
  | .space, rest => ∀ c ∈ rest.head?, isBlank c = false
  | _, _ => True

variable {p q : Parts} {f g : PatternItem} {rest : List Char}

theorem read_fraction (hq : q.nano < 1000000000) (h : fraction.Stops rest) :
    fraction.read p (fractionChars q.nano ++ rest) = some (fraction.copy q p, rest) := by
  obtain ⟨hdigit, hpoint⟩ := h
  have hread {places n : Nat} (hplaces : 0 < places) (hle : places ≤ 9) (hn : n < 10 ^ places)
      (hnano : n * 10 ^ (9 - places) = q.nano) :
      fraction.read p ('.' :: padded places n ++ rest) =
        some ({ p with nano := q.nano }, rest) := by
    rw [List.cons_append, read, readNanos_padded hplaces hle hn hdigit, hnano]
    rfl
  unfold fractionChars
  by_cases hzero : q.nano = 0
  · rw [if_pos hzero, copy, if_pos hzero, List.nil_append]
    dsimp only [read]
    split
    · exact absurd rfl hpoint
    · rfl
  · rw [if_neg hzero, copy, if_neg hzero]
    split
    · exact hread (by decide) (by decide) (by omega) (by omega)
    · split
      · exact hread (by decide) (by decide) (by omega) (by omega)
      · exact hread (by decide) (by decide) (by omega) (by omega)

/-- An item reads what it wrote, before a text that does not go on with it. -/
theorem read_write (hq : q.Fits) (h : f.Stops rest) :
    f.read p (f.write q ++ rest) = some (f.copy q p, rest) := by
  have htwo {n : Nat} (hn : n < 100) :
      readDigits 2 ((padded 2 n ++ rest).dropWhile isBlank) = some (n, rest) := by
    rw [dropWhile_padded]
    exact readDigits_padded (by decide) hn rest
  cases f with
  | year =>
    obtain ⟨c, cs, hyear, hc⟩ := exists_yearChars q.year
    have hdrop : (yearChars q.year ++ rest).dropWhile isBlank = yearChars q.year ++ rest := by
      rw [hyear]
      exact List.dropWhile_cons_of_neg (by simp [hc])
    rw [write, read, hdrop, readYear_yearChars _ h]
    rfl
  | month =>
    rw [write, read, htwo hq.month]
    rfl
  | day =>
    rw [write, read, htwo hq.day]
    rfl
  | hour =>
    rw [write, read, htwo hq.hour]
    rfl
  | minute =>
    rw [write, read, htwo hq.minute]
    rfl
  | second =>
    rw [write, read, htwo hq.second]
    rfl
  | fraction => exact read_fraction hq.nano h
  | literal c => simp [write, read, copy]
  | space =>
    have hdrop : (' ' :: rest).dropWhile isBlank = rest := by
      rw [List.dropWhile_cons_of_pos (by decide)]
      cases rest with
      | nil => rfl
      | cons c rest => exact List.dropWhile_cons_of_neg (by simp [h c rfl])
    rw [write, List.singleton_append, read, hdrop]
    rfl

/-- Whether an item ends where another one begins: a year before what is no digit, blanks before
what is no blank. -/
def endsBefore : PatternItem → PatternItem → Bool
  | .year, .literal c => !c.isDigit
  | .year, g => g = .space
  | .fraction, _ => false
  | .space, .literal c => !isBlank c
  | .space, g => g ≠ .space && g ≠ .fraction
  | _, _ => true

theorem stops_nil (f : PatternItem) : f.Stops [] := by
  cases f <;> simp [Stops, NoDigit]

theorem stops_write (h : f.endsBefore g = true) (rest : List Char) :
    f.Stops (g.write q ++ rest) := by
  have hnumber (n : Nat) : ∀ c ∈ (padded 2 n ++ rest).head?, isBlank c = false := by
    intro c hc
    cases hpadded : padded 2 n with
    | nil => exact absurd hpadded (padded_ne_nil 2 n)
    | cons x xs =>
      rw [hpadded] at hc
      obtain rfl := Option.some.inj hc
      exact isBlank_of_isDigit (isDigit_of_mem_padded (hpadded ▸ List.mem_cons_self))
  cases f with
  | year =>
    cases g with
    | literal c =>
      rintro x ⟨⟩
      simpa [endsBefore] using h
    | space =>
      rintro x ⟨⟩
      decide
    | _ => cases h
  | fraction => cases h
  | space =>
    cases g with
    | literal c =>
      rintro x ⟨⟩
      simpa [endsBefore] using h
    | year =>
      obtain ⟨c, cs, hyear, hc⟩ := exists_yearChars q.year
      rw [write, hyear]
      rintro x ⟨⟩
      exact hc
    | month => exact hnumber q.month
    | day => exact hnumber q.day
    | hour => exact hnumber q.hour
    | minute => exact hnumber q.minute
    | second => exact hnumber q.second
    | fraction => cases h
    | space => cases h
  | _ => trivial

end PatternItem

/-- Whether each item of a pattern ends where the next one begins. -/
def delimited : List PatternItem → Bool
  | f :: g :: fs => f.endsBefore g && delimited (g :: fs)
  | _ => true

/-- A pattern reads what it wrote, and a longer pattern goes on with nothing. -/
theorem readItems_append_writeItems (pattern : List PatternItem)
    (hpattern : delimited pattern = true) (more : List PatternItem) {q : Parts} (hq : q.Fits)
    (p : Parts) : readItems (pattern ++ more) p (writeItems pattern q) =
      readItems more (pattern.foldl (fun p f => f.copy q p) p) [] := by
  induction pattern generalizing p with
  | nil => rfl
  | cons f fs ih =>
    have hrest : delimited fs = true ∧ f.Stops (writeItems fs q) := by
      cases fs with
      | nil => exact ⟨rfl, f.stops_nil⟩
      | cons g fs =>
        rw [delimited, Bool.and_eq_true] at hpattern
        exact ⟨hpattern.2, PatternItem.stops_write hpattern.1 _⟩
    change (f.read p (f.write q ++ writeItems fs q)).bind _ = _
    rw [PatternItem.read_write hq hrest.2]
    exact ih hrest.1 _

theorem readItems_writeItems (pattern : List PatternItem) (hpattern : delimited pattern = true)
    {q : Parts} (hq : q.Fits) (p : Parts) :
    readItems pattern p (writeItems pattern q) =
      some (pattern.foldl (fun p f => f.copy q p) p) := by
  have hread := readItems_append_writeItems pattern hpattern [] hq p
  rwa [List.append_nil] at hread

/-! ## Dates, times and timestamps -/

theorem month_le_of_isDate {year : Int} {month day : Nat} (h : isDate year month day = true) :
    month ≤ 12 ∧ day ≤ 31 := by
  simp only [isDate, Bool.and_eq_true, decide_eq_true_eq] at h
  obtain ⟨⟨-, hday⟩, hmonth⟩ := h
  have hfebruary : (if isLeap year then 29 else 28) ≤ 31 := by split <;> decide
  unfold daysInMonth at hmonth
  split at hmonth <;> omega

theorem Parts.fits_ofDateTime (d : Date) (t : TimeOfDay) : (Parts.ofDateTime d t).Fits where
  month := Nat.lt_of_le_of_lt (month_le_of_isDate d.exists_day).1 (by decide)
  day := Nat.lt_of_le_of_lt (month_le_of_isDate d.exists_day).2 (by decide)
  hour := Nat.lt_trans t.hour_lt (by decide)
  minute := Nat.lt_trans t.minute_lt (by decide)
  second := by
    have := t.second_lt
    simp only [ofDateTime]
    split <;> omega
  nano := Nat.mod_lt _ (by decide)

theorem Date.ext_parts {d e : Date} (hyear : d.year = e.year) (hmonth : d.month = e.month)
    (hday : d.day = e.day) : d = e := by
  cases d
  cases e
  simp_all

theorem Date.text_injective {d e : Date} (h : d.text = e.text) : d = e := by
  have hread (d : Date) := readItems_writeItems isoDate (by decide)
    (Parts.fits_ofDateTime d .midnight) {}
  have hparts := hread d
  rw [String.ofList_injective h, hread e] at hparts
  obtain ⟨hyear, hmonth, hday⟩ : e.year = d.year ∧ e.month = d.month ∧ e.day = d.day := by
    simpa [isoDate, PatternItem.copy, Parts.ofDateTime] using hparts
  exact ext_parts hyear.symm hmonth.symm hday.symm

/-- The hour, the minute and the second that are shown; a leap second is the one after the second
that it belongs to. -/
def TimeOfDay.shown (t : TimeOfDay) : Nat × Nat × Nat :=
  (t.hour, t.minute, t.second + t.nano / 1000000000)

theorem Parts.ofDateTime_eq (d : Date) (t : TimeOfDay) : ofDateTime d t =
    { year := d.year, month := d.month, day := d.day, hour := t.hour, minute := t.minute,
      second := t.second + t.nano / 1000000000, nano := t.nano % 1000000000 } := by
  have hsecond : (if t.nano < 1000000000 then t.second else t.second + 1) =
      t.second + t.nano / 1000000000 := by
    have := t.nano_lt
    split <;> omega
  rw [ofDateTime, hsecond]

/-- The text of a time tells what is shown and the fraction of the second. -/
theorem TimeOfDay.text_eq_iff {s t : TimeOfDay} : s.text = t.text ↔
    s.shown = t.shown ∧ s.nano % 1000000000 = t.nano % 1000000000 := by
  have hread (t : TimeOfDay) : readItems (clock ++ [.fraction]) {} t.text.toList =
      some { hour := t.hour, minute := t.minute, second := t.second + t.nano / 1000000000,
             nano := t.nano % 1000000000 } := by
    have h := readItems_writeItems (clock ++ [.fraction]) (by decide)
      (Parts.fits_ofDateTime .epoch t) {}
    rw [text, String.toList_ofList, h, Parts.ofDateTime_eq]
    by_cases hnano : t.nano % 1000000000 = 0 <;>
      simp [clock, hourMinute, PatternItem.copy, hnano]
  constructor
  · intro h
    have hparts := hread s
    rw [h, hread t] at hparts
    simp only [Option.some.injEq, Parts.mk.injEq, true_and] at hparts
    obtain ⟨hhour, hminute, hsecond, hnano⟩ := hparts
    exact ⟨by rw [shown, shown, hhour, hminute, hsecond], hnano.symm⟩
  · rintro ⟨hshown, hnano⟩
    simp only [shown, Prod.mk.injEq] at hshown
    obtain ⟨hhour, hminute, hsecond⟩ := hshown
    rw [text, Parts.ofDateTime_eq, hhour, hminute, hsecond, hnano, ← Parts.ofDateTime_eq, text]

theorem Timestamp.text_eq_iff {s t : Timestamp} : s.text = t.text ↔
    s.date = t.date ∧ s.time.shown = t.time.shown := by
  have hread (t : Timestamp) : readItems timestampPattern {} t.text.toList =
      some { year := t.date.year, month := t.date.month, day := t.date.day, hour := t.time.hour,
             minute := t.time.minute, second := t.time.second + t.time.nano / 1000000000 } := by
    have h := readItems_writeItems timestampPattern (by decide)
      (Parts.fits_ofDateTime t.date t.time) {}
    rw [text, String.toList_ofList, h, Parts.ofDateTime_eq]
    simp [timestampPattern, isoDate, clock, hourMinute, PatternItem.copy]
  constructor
  · intro h
    have hparts := hread s
    rw [h, hread t] at hparts
    simp only [Option.some.injEq, Parts.mk.injEq, and_true] at hparts
    obtain ⟨hyear, hmonth, hday, hhour, hminute, hsecond⟩ := hparts
    refine ⟨Date.ext_parts hyear.symm hmonth.symm hday.symm, ?_⟩
    rw [TimeOfDay.shown, TimeOfDay.shown, hhour, hminute, hsecond]
  · rintro ⟨hdate, hshown⟩
    simp only [TimeOfDay.shown, Prod.mk.injEq] at hshown
    obtain ⟨hhour, hminute, hsecond⟩ := hshown
    rw [text, text, Parts.ofDateTime_eq, Parts.ofDateTime_eq, hdate, hhour, hminute, hsecond]
    rfl

end RowMapper.Calendar
