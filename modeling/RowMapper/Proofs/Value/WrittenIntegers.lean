import RowMapper.Value.Coercion
import RowMapper.Proofs.Calendar.WrittenItems
import RowMapper.Proofs.Decimal.WholeNumbers

/-! # Written integers in integer columns

An integer may be written with a sign and with zeros after a point. Without a point it is read
as an integer of 64 bits when it is one. Every other writing is read as a double, and the nearest
double, moved into 64 bits, is what the column gets; only past the largest double it is null.
-/

namespace RowMapper

open Decimal Text

inductive WrittenSign where
  | none
  | plus
  | minus
  deriving DecidableEq

namespace WrittenSign

def chars : WrittenSign → List Char
  | none => []
  | plus => ['+']
  | minus => ['-']

def apply : WrittenSign → Nat → Int
  | none, n => n
  | plus, n => n
  | minus, n => -n

end WrittenSign

/-- An optional sign, decimal digits, and zeros after a point, if there is one. -/
structure WrittenInteger where
  sign : WrittenSign
  digits : List Char
  zeros : Option Nat
  digits_ne_nil : digits ≠ []
  isDigit_of_mem : ∀ c ∈ digits, c.isDigit = true

namespace WrittenInteger

variable (w : WrittenInteger)

def places : List Char :=
  match w.zeros with
  | none => []
  | some k => '.' :: List.replicate k '0'

def chars : List Char := w.sign.chars ++ (w.digits ++ w.places)

def text : String := String.ofList w.chars

def magnitude : Nat := Nat.ofDigitChars 10 w.digits 0

def value : Int := w.sign.apply w.magnitude

def ofNat (sign : WrittenSign) (n : Nat) (zeros : Option Nat) : WrittenInteger where
  sign := sign
  digits := Nat.toDigits 10 n
  zeros := zeros
  digits_ne_nil := Nat.toDigits_ne_nil
  isDigit_of_mem _ hc := Nat.isDigit_of_mem_toDigits (by decide) (by decide) hc

/-! ## Characters -/

theorem isDigit_or_of_mem_places {c : Char} (h : c ∈ w.places) : c.isDigit = true ∨ c = '.' := by
  unfold places at h
  split at h
  · simp at h
  · rcases List.mem_cons.1 h with rfl | h
    · exact .inr rfl
    · rw [List.eq_of_mem_replicate h]
      exact .inl (by decide)

theorem isDigit_or_of_mem_body {c : Char} (h : c ∈ w.digits ++ w.places) :
    c.isDigit = true ∨ c = '.' := by
  rcases List.mem_append.1 h with h | h
  · exact .inl (w.isDigit_of_mem c h)
  · exact w.isDigit_or_of_mem_places h

theorem trimChars_chars : trimChars w.chars = w.chars := by
  refine trimChars_eq_self fun c hc => ?_
  rcases List.mem_append.1 hc with hc | hc
  · cases hsign : w.sign <;> simp only [hsign, WrittenSign.chars, List.not_mem_nil,
      List.mem_singleton] at hc <;> subst hc <;> decide
  · rcases w.isDigit_or_of_mem_body hc with hdigit | rfl
    · exact Calendar.isBlank_of_isDigit hdigit
    · decide

theorem exists_body : ∃ c cs, w.digits ++ w.places = c :: cs ∧ c.isDigit = true := by
  cases hdigits : w.digits with
  | nil => exact absurd hdigits w.digits_ne_nil
  | cons c cs =>
    exact ⟨c, cs ++ w.places, rfl, w.isDigit_of_mem c (hdigits ▸ List.mem_cons_self)⟩

def scale : Nat := w.zeros.getD 0

theorem noDigit_places : Calendar.NoDigit w.places := by
  intro c hc
  unfold places at hc
  split at hc
  · simp at hc
  · obtain rfl : '.' = c := by simpa using hc
    decide

/-! ## Reading an integer -/

theorem readNat_body : readNat (w.digits ++ w.places) =
    if w.zeros.isNone then some w.magnitude else none := by
  have hdigits : w.digits.all Char.isDigit = true := List.all_eq_true.2 w.isDigit_of_mem
  cases hzeros : w.zeros with
  | none =>
    have hne : (!w.digits.isEmpty) = true := by simpa using w.digits_ne_nil
    have hplaces : w.places = [] := by rw [places, hzeros]
    rw [hplaces, List.append_nil, readNat, hne, hdigits, Calendar.foldDigits_eq_ofDigitChars]
    rfl
  | some k =>
    have hpoint : (w.digits ++ w.places).all Char.isDigit = false := by
      rw [List.all_eq_false]
      exact ⟨'.', by simp [places, hzeros], by decide⟩
    rw [readNat, hpoint, Bool.and_false]
    rfl

theorem readInt_chars : readInt w.chars = if w.zeros.isNone then some w.value else none := by
  have hread : readInt w.chars = (readNat (w.digits ++ w.places)).map w.sign.apply := by
    unfold chars
    cases w.sign with
    | plus => rfl
    | minus =>
      rw [WrittenSign.chars, List.singleton_append, readInt]
      cases readNat (w.digits ++ w.places) <;> rfl
    | none =>
      obtain ⟨c, cs, hbody, hc⟩ := w.exists_body
      rw [WrittenSign.chars, List.nil_append, hbody]
      unfold readInt
      split
      · next heq =>
        obtain ⟨rfl, -⟩ := List.cons.inj heq
        exact absurd hc (by decide)
      · next heq =>
        obtain ⟨rfl, -⟩ := List.cons.inj heq
        exact absurd hc (by decide)
      · rfl
  rw [hread, readNat_body]
  split <;> rfl

/-- What is read as an integer is written as one, without a point. -/
theorem exists_of_readInt {cs : List Char} {n : Int} (h : readInt cs = some n) :
    ∃ w : WrittenInteger, w.chars = cs ∧ w.value = n := by
  have hread (sign : WrittenSign) {digits : List Char}
      (h : (readNat digits).map sign.apply = some n) :
      ∃ w : WrittenInteger, w.chars = sign.chars ++ digits ∧ w.value = n := by
    unfold readNat at h
    split at h
    · next hdigits =>
      rw [Bool.and_eq_true, Bool.not_eq_true', List.isEmpty_eq_false_iff, List.all_eq_true]
        at hdigits
      refine ⟨⟨sign, digits, none, hdigits.1, hdigits.2⟩, ?_, ?_⟩
      · exact congrArg (sign.chars ++ ·) (List.append_nil digits)
      · rw [Calendar.foldDigits_eq_ofDigitChars] at h
        exact Option.some.inj h
    · cases h
  unfold readInt at h
  split at h
  · next cs =>
    refine hread .minus ?_
    rw [← h]
    cases readNat cs <;> rfl
  · exact hread .plus h
  · exact hread .none h

/-! ## Reading a double -/

theorem splitExponent_body :
    splitExponent (w.digits ++ w.places) = (w.digits ++ w.places, none) := by
  have hnone : (w.digits ++ w.places).dropWhile (fun c => !(c == 'e' || c == 'E')) = [] := by
    rw [List.dropWhile_eq_nil_iff]
    intro c hc
    rcases w.isDigit_or_of_mem_body hc with hdigit | rfl
    · have he : c ≠ 'e' := by
        rintro rfl
        exact absurd hdigit (by decide)
      have hE : c ≠ 'E' := by
        rintro rfl
        exact absurd hdigit (by decide)
      simp [he, hE]
    · decide
  unfold splitExponent
  simp only [hnone]

theorem readPlaces_body : readPlaces (w.digits ++ w.places) =
    some (w.digits ++ List.replicate w.scale '0', w.scale) := by
  have hne : w.digits.isEmpty = false := by simpa using w.digits_ne_nil
  have htake : (w.digits ++ w.places).takeWhile Char.isDigit = w.digits := by
    rw [List.takeWhile_append_of_pos w.isDigit_of_mem, w.noDigit_places.takeWhile, List.append_nil]
  have hdrop : (w.digits ++ w.places).dropWhile Char.isDigit = w.places := by
    rw [List.dropWhile_append_of_pos w.isDigit_of_mem, w.noDigit_places.dropWhile]
  unfold readPlaces
  simp only [htake, hdrop]
  cases hzeros : w.zeros with
  | none => simp [places, scale, hzeros, hne]
  | some k =>
    have hall : (List.replicate k '0').all Char.isDigit = true := by
      rw [List.all_eq_true]
      intro c hc
      rw [List.eq_of_mem_replicate hc]
      decide
    simp [places, scale, hzeros, hne, hall]

theorem foldDigits_body :
    foldDigits 0 (w.digits ++ List.replicate w.scale '0') = w.magnitude * 10 ^ w.scale := by
  rw [Calendar.foldDigits_eq_ofDigitChars, Nat.ofDigitChars_append,
    Nat.ofDigitChars_replicate_zero, Nat.mul_comm]
  rfl

theorem lowered_body_ne {word : String} {c : Char} {cs : List Char} (hword : word.toList = c :: cs)
    (hc : c.isDigit = false) :
    String.ofList ((w.digits ++ w.places).map Char.toLower) ≠ word := by
  rintro rfl
  obtain ⟨d, ds, hbody, hd⟩ := w.exists_body
  rw [String.toList_ofList, hbody] at hword
  obtain ⟨hlower, -⟩ := List.cons.inj hword
  have hupper : ¬ d.isUpper = true := by
    simp only [Char.isDigit, Char.isUpper, Bool.and_eq_true, decide_eq_true_eq,
      UInt32.le_iff_toNat_le, ge_iff_le] at hd ⊢
    have hbefore : '9'.val.toNat < 'A'.val.toNat := by decide
    omega
  rw [← hlower, Char.toLower_eq_of_not_isUpper hupper, hd] at hc
  exact absurd hc (by decide)

theorem readMagnitude_body : ∃ x, readMagnitude (w.digits ++ w.places) = some x ∧
    IsNearest x w.magnitude := by
  have hread : readMagnitude (w.digits ++ w.places) = some (nearestDouble
      (w.magnitude * 10 ^ w.scale) (w.digits ++ List.replicate w.scale '0').length
      (-(w.scale : Int))) := by
    unfold readMagnitude
    split
    · next h => exact absurd h (w.lowered_body_ne (c := 'i') rfl (by decide))
    · next h => exact absurd h (w.lowered_body_ne (c := 'i') rfl (by decide))
    · next h => exact absurd h (w.lowered_body_ne (c := 'n') rfl (by decide))
    · simp only [splitExponent_body, readPlaces_body, foldDigits_body]
  exact ⟨_, hread, isNearest_nearestDouble _ (by simp)⟩

theorem readFloat_chars : ∃ x, readFloat w.chars = some x ∧ IsNearest x w.value := by
  obtain ⟨x, hread, hnearest⟩ := w.readMagnitude_body
  unfold chars value
  cases w.sign with
  | plus => exact ⟨x, hread, hnearest⟩
  | minus => exact ⟨x.neg, congrArg (Option.map Float.neg) hread, hnearest.neg⟩
  | none =>
    obtain ⟨c, cs, hbody, hc⟩ := w.exists_body
    refine ⟨x, ?_, hnearest⟩
    rw [hbody] at hread
    rw [WrittenSign.chars, List.nil_append, hbody]
    unfold readFloat
    split
    · next heq =>
      obtain ⟨rfl, -⟩ := List.cons.inj heq
      exact absurd hc (by decide)
    · next heq =>
      obtain ⟨rfl, -⟩ := List.cons.inj heq
      exact absurd hc (by decide)
    · exact hread

/-! ## What an integer column gets -/

/-- The nearest double moved into 64 bits; null past the largest double. -/
def rounded (n : Int) : Value :=
  if (nearestInt n).natAbs < 2 ^ 1024 then .ofInt (clampInt64 (nearestInt n)) else .null

def stored : Value :=
  if w.zeros.isNone && fitsInt64 w.value then .ofInt w.value else rounded w.value

/-- The written integer, or null if it does not have 64 bits. -/
def exactForm : Value :=
  if fitsInt64 w.value then .ofInt w.value else .null

theorem value_of_isNearest {x : Float} {n : Int} (h : IsNearest x n) :
    (if isIntegral x then Value.ofInt (toInt64Clamped x) else .null) = rounded n := by
  unfold rounded
  cases h with
  | finite hsmall h =>
    rw [isIntegral_of_stands h, toInt64Clamped_of_stands h, if_pos rfl, if_pos hsmall]
  | infinite s hlarge h =>
    rw [isIntegral_of_infinity h, if_neg Bool.false_ne_true, if_neg (Nat.not_lt.2 hlarge)]

theorem coerce_text {type : SqlType} (hinteger : type.family = .integer)
    (filter : ImportFilter) : Value.coerce type filter (.text w.text) = w.stored := by
  obtain ⟨x, hread, hnearest⟩ := w.readFloat_chars
  have hform : Value.coerce type filter (.text w.text) = (Value.text w.text).toIntegerForm := by
    simp [Value.coerce, Value.isNull, Value.keepsNow, hinteger]
  have hint : readInt64 w.chars =
      if w.zeros.isNone && fitsInt64 w.value then some w.value else none := by
    rw [readInt64, readInt_chars]
    cases w.zeros.isNone <;> simp [Option.filter]
  rw [hform, Value.toIntegerForm, text, String.toList_ofList, trimChars_chars, hint, stored]
  by_cases hwhole : (w.zeros.isNone && fitsInt64 w.value) = true
  · simp only [if_pos hwhole]
  · simp only [if_neg hwhole, hread]
    exact value_of_isNearest hnearest

/-! ## When it is the written integer -/

/-- The doubles end half a last place before `2 ^ 1024`. -/
theorem two_pow_le_natAbs_nearestInt_iff (n : Int) :
    2 ^ 1024 ≤ (nearestInt n).natAbs ↔ 2 ^ 1024 ≤ n.natAbs + 2 ^ 970 := by
  have hbound := two_pow_le_nearestNat_iff n.natAbs 970
  simp only [Nat.reduceAdd] at hbound
  rw [natAbs_nearestInt, hbound]

theorem rounded_eq_null_iff (n : Int) : rounded n = .null ↔ 2 ^ 1024 ≤ n.natAbs + 2 ^ 970 := by
  rw [← two_pow_le_natAbs_nearestInt_iff, ← Nat.not_lt, rounded]
  split
  · next h => exact iff_of_false nofun (not_not_intro h)
  · next h => exact iff_of_true rfl h

theorem ofInt_inj {m n : Int} (hm : fitsInt64 m) (hn : fitsInt64 n) :
    Value.ofInt m = Value.ofInt n ↔ m = n := by
  rw [fitsInt64_iff] at hm hn
  simp only [int64Min, int64Max] at hm hn
  refine ⟨fun h => ?_, fun h => h ▸ rfl⟩
  have hwords := congrArg Int64.toInt (Value.int64.inj h)
  rwa [Int64.toInt_ofInt_of_le (by omega) (by omega),
    Int64.toInt_ofInt_of_le (by omega) (by omega)] at hwords

theorem rounded_eq_ofInt_iff {n : Int} (hn : fitsInt64 n) :
    rounded n = .ofInt n ↔ clampInt64 (nearestInt n) = n := by
  have hrange := fitsInt64_iff.1 hn
  simp only [int64Min, int64Max] at hrange
  have hsmall : (nearestInt n).natAbs < 2 ^ 1024 := by
    rw [← Nat.not_le, two_pow_le_natAbs_nearestInt_iff]
    omega
  rw [rounded, if_pos hsmall, ofInt_inj (clampInt64_fits _) hn]

/-- An integer column gets the integer that a text writes, or null when this has not 64 bits, just
when the text has no point, or rounding to 53 bits and moving into 64 bits changes nothing, or
the number is past the largest double. -/
theorem coerce_text_exact_iff {type : SqlType} (hinteger : type.family = .integer)
    (filter : ImportFilter) :
    Value.coerce type filter (.text w.text) = w.exactForm ↔
      if fitsInt64 w.value then w.zeros = none ∨ clampInt64 (nearestInt w.value) = w.value
      else 2 ^ 1024 ≤ w.value.natAbs + 2 ^ 970 := by
  rw [w.coerce_text hinteger filter, stored, exactForm]
  by_cases hfits : fitsInt64 w.value
  · rw [hfits, if_pos rfl, if_pos rfl]
    cases hzeros : w.zeros with
    | none => exact iff_of_true rfl (.inl rfl)
    | some k => simp [rounded_eq_ofInt_iff hfits]
  · rw [Bool.not_eq_true] at hfits
    rw [hfits, Bool.and_false, if_neg Bool.false_ne_true, if_neg Bool.false_ne_true,
      if_neg Bool.false_ne_true, rounded_eq_null_iff]

def evenSample : WrittenInteger :=
  ofNat .minus 9007199254740994 (some 2)

theorem evenSample_exact : evenSample.text = "-9007199254740994.00" ∧
    Value.coerce .bigInt .passThrough (.text evenSample.text) = evenSample.exactForm :=
  ⟨by decide, (evenSample.coerce_text_exact_iff rfl .passThrough).2 (by decide +kernel)⟩

def pastMaxSample : WrittenInteger :=
  ofNat .none 9223372036854775808 none

def oddSample : WrittenInteger :=
  ofNat .none 9007199254740993 (some 1)

/-- The one is stored as the greatest integer of 64 bits, the other as its neighbour. -/
theorem pastMaxSample_saturated :
    (pastMaxSample.text = "9223372036854775808" ∧ fitsInt64 pastMaxSample.value = false ∧
      Value.coerce .bigInt .passThrough (.text pastMaxSample.text) =
        .int64 9223372036854775807) ∧
    (oddSample.text = "9007199254740993.0" ∧ oddSample.value = 9007199254740993 ∧
      Value.coerce .bigInt .passThrough (.text oddSample.text) = .int64 9007199254740992) := by
  have hsaturated : pastMaxSample.stored = .ofInt (clampInt64 (nearestInt pastMaxSample.value)) := by
    rw [stored, if_neg (by decide +kernel), rounded, if_pos (by decide +kernel)]
  have hmax : clampInt64 (nearestInt pastMaxSample.value) = 9223372036854775807 := by
    decide +kernel
  have hrounded : oddSample.stored = .ofInt (clampInt64 (nearestInt oddSample.value)) := by
    rw [stored, if_neg (by decide +kernel), rounded, if_pos (by decide +kernel)]
  have heven : clampInt64 (nearestInt oddSample.value) = 9007199254740992 := by decide +kernel
  rw [hmax] at hsaturated
  rw [heven] at hrounded
  exact ⟨⟨by decide, by decide +kernel, (pastMaxSample.coerce_text rfl _).trans hsaturated⟩,
    by decide, by decide +kernel, (oddSample.coerce_text rfl _).trans hrounded⟩

end WrittenInteger

end RowMapper
