import RowMapper.Value.Basic
import Mathlib

/-! # Integers as doubles

What an integer becomes as a double: its leading 53 bits, rounded to the nearest
and to the even one of two, with zeros for the dropped bits. Doubles of integers
are equal just when these rounded integers are. The conversion is followed through
shifting, rounding, packing and unpacking; values are kept as whole multiples of
`2 ^ -52`, so that all arithmetic stays in the integers.
-/

namespace RowMapper.Decimal

open Float.Model Float.Model.UnpackedFloat

/-! ## Rounding -/

/-- The quotient of `m` by `2 ^ k`, rounded to the nearest and to the even one of two. -/
def halfEven (m k : Nat) : Nat :=
  if 2 * (m % 2 ^ k) < 2 ^ k then m / 2 ^ k
  else if 2 * (m % 2 ^ k) = 2 ^ k then m / 2 ^ k + m / 2 ^ k % 2
  else m / 2 ^ k + 1

/-- A natural number with the bits after its first 53 rounded off. -/
def nearestNat (n : Nat) : Nat := halfEven n (n.log2 - 52) * 2 ^ (n.log2 - 52)

/-- The integer that the nearest double stands for. -/
def nearestInt (n : Int) : Int :=
  if n < 0 then -(nearestNat n.natAbs : Int) else nearestNat n.toNat

theorem halfEven_bounds (m k : Nat) : m / 2 ^ k ≤ halfEven m k ∧ halfEven m k ≤ m / 2 ^ k + 1 := by
  unfold halfEven
  split
  · omega
  · split <;> omega

@[simp] theorem halfEven_zero (m : Nat) : halfEven m 0 = m := by
  simp [halfEven, Nat.mod_one]

/-- Zero bits that are appended are dropped again. -/
theorem halfEven_shift (m k c : Nat) : halfEven (m * 2 ^ c) (k + c) = halfEven m k := by
  have hpos : 0 < 2 ^ c := Nat.two_pow_pos c
  have hrest : 2 * (m * 2 ^ c % (2 ^ k * 2 ^ c)) = 2 * (m % 2 ^ k) * 2 ^ c := by
    rw [Nat.mul_mod_mul_right, Nat.mul_assoc]
  unfold halfEven
  rw [Nat.pow_add, hrest, Nat.mul_div_mul_right _ _ hpos]
  simp only [Nat.mul_lt_mul_right hpos, Nat.mul_right_cancel_iff hpos]

/-- The residual bits after some shifts: the last bit dropped, and whether one before it was set. -/
theorem shift_exact (m k : Nat) :
    ExtendedMantissa.ofMantissaAndAccuracy m .exact >>> (k + 1) =
      ⟨m / 2 ^ (k + 1), m / 2 ^ k % 2 != 0, m % 2 ^ k != 0⟩ := by
  change (k + 1).repeat ExtendedMantissa.shiftRightOne ⟨m, false, false⟩ = _
  induction k with
  | zero => simp [Nat.repeat, ExtendedMantissa.shiftRightOne, Nat.mod_one]
  | succ k ih =>
    have hsticky : (m / 2 ^ k % 2 != 0 || m % 2 ^ k != 0) = (m % 2 ^ (k + 1) != 0) := by
      have hpos : 0 < 2 ^ k := Nat.two_pow_pos k
      rw [Nat.pow_succ, Nat.mod_mul]
      rcases Nat.mod_two_eq_zero_or_one (m / 2 ^ k) with hbit | hbit
      · simp [hbit]
      · have hset : (m % 2 ^ k + 2 ^ k * 1 != 0) = true := bne_iff_ne.2 (by omega)
        rw [hbit, hset]
        rfl
    rw [Nat.repeat, ih]
    simp only [ExtendedMantissa.shiftRightOne, hsticky, Nat.div_div_eq_div_mul, ← Nat.pow_succ]

theorem roundedMantissa_mk (q : Nat) (round sticky : Bool) :
    ExtendedMantissa.roundedMantissa ⟨q, round, sticky⟩ =
      if round then if sticky then q + 1 else q + q % 2 else q := by
  cases round <;> cases sticky <;> rfl

/-- The residual bits carry what rounding half to even needs. -/
theorem roundedMantissa_shift (m k : Nat) :
    (ExtendedMantissa.ofMantissaAndAccuracy m .exact >>> k).roundedMantissa = halfEven m k := by
  cases k with
  | zero => exact (halfEven_zero m).symm
  | succ k =>
    have hlt : m % 2 ^ k < 2 ^ k := Nat.mod_lt m (Nat.two_pow_pos k)
    have hrest : m % 2 ^ (k + 1) = m % 2 ^ k + 2 ^ k * (m / 2 ^ k % 2) := by
      rw [Nat.pow_succ, Nat.mod_mul]
    rw [shift_exact, roundedMantissa_mk, halfEven, hrest]
    rcases Nat.mod_two_eq_zero_or_one (m / 2 ^ k) with hbit | hbit
    · have hsmall : 2 * (m % 2 ^ k) < 2 ^ (k + 1) := by omega
      simp [hbit, hsmall]
    · have hlarge : ¬ 2 * (m % 2 ^ k + 2 ^ k) < 2 ^ (k + 1) := by omega
      have hhalf : 2 * (m % 2 ^ k + 2 ^ k) = 2 ^ (k + 1) ↔ m % 2 ^ k = 0 := by omega
      simp only [hbit, Nat.mul_one, if_neg hlarge, hhalf]
      by_cases hsticky : m % 2 ^ k = 0 <;> simp [hsticky]

/-! ## Unpacked doubles -/

/-- A double that stands for `v / 2 ^ 52`: a signed zero, or a full significand of 53 bits with an
exponent in range. -/
inductive Stands : UnpackedFloat → Int → Prop
  | zero (s : Sign) : Stands (.zero s) 0
  | normal (s : Sign) (m e : Nat) (h : 0 < m) (hlow : 2 ^ 52 ≤ m) (hhigh : m < 2 ^ 53)
      (hrange : e < 1024) : Stands (.finite s m (e - 52) h) (s.apply (m * 2 ^ e : Nat))

theorem log2_mul_two_pow {n : Nat} (hn : 0 < n) (k : Nat) : (n * 2 ^ k).log2 = n.log2 + k := by
  induction k with
  | zero => simp
  | succ k ih =>
    have hne : n * 2 ^ k ≠ 0 := by
      have := Nat.mul_pos hn (Nat.two_pow_pos k)
      omega
    rw [Nat.pow_succ, ← Nat.mul_assoc, Nat.mul_comm, Nat.log2_two_mul hne, ih]
    omega

theorem log2_significand {m : Nat} (hlow : 2 ^ 52 ≤ m) (hhigh : m < 2 ^ 53) (k : Nat) :
    (m * 2 ^ k).log2 = 52 + k := by
  rw [log2_mul_two_pow (by omega), (Nat.log2_eq_iff (by omega)).2 ⟨hlow, hhigh⟩]

/-- A significand and its exponent are known from the number they stand for. -/
theorem significand_unique {m n d e : Nat} (hm : 2 ^ 52 ≤ m) (hm' : m < 2 ^ 53) (hn : 2 ^ 52 ≤ n)
    (hn' : n < 2 ^ 53) (h : m * 2 ^ d = n * 2 ^ e) : m = n ∧ d = e := by
  have hexponent : d = e := by
    have hlog := congrArg Nat.log2 h
    rw [log2_significand hm hm', log2_significand hn hn'] at hlog
    omega
  subst hexponent
  exact ⟨Nat.eq_of_mul_eq_mul_right (Nat.two_pow_pos d) h, rfl⟩

theorem apply_neg (s : Sign) (n : Nat) : (-s).apply n = -s.apply n := by
  cases s
  · exact (Int.neg_neg _).symm
  · rfl

theorem apply_eq_apply_iff {s t : Sign} {m n : Nat} (hm : 0 < m) :
    s.apply m = t.apply n ↔ s = t ∧ m = n := by
  cases s <;> cases t <;> simp [Sign.apply] <;> omega

theorem beq_finite_iff {s t : Sign} {m n : Nat} {d e : Int} (hm : 0 < m) (hn : 0 < n) :
    UnpackedFloat.beq (.finite s m d hm) (.finite t n e hn) = true ↔ s = t ∧ m = n ∧ d = e := by
  cases s <;> cases t <;>
    simp [UnpackedFloat.beq, UnpackedFloat.compare, Ordering.then_eq_eq, and_comm]

namespace Stands

variable {x y : UnpackedFloat} {v w : Int}

theorem neg (h : Stands x v) : Stands x.neg (-v) := by
  cases h with
  | zero s => exact .zero (-s)
  | normal s m e h hlow hhigh hrange =>
    rw [← apply_neg]
    exact .normal (-s) m e h hlow hhigh hrange

theorem beq_iff (hx : Stands x v) (hy : Stands y w) : x.beq y = true ↔ v = w := by
  have apply_ne_zero (s : Sign) {n : Nat} (hn : 0 < n) : s.apply n ≠ 0 := by
    cases s <;> simp [Sign.apply] <;> omega
  cases hx with
  | zero s =>
    cases hy with
    | zero t => simp [UnpackedFloat.beq, UnpackedFloat.compare]
    | normal t n e hn hlow hhigh hrange =>
      have hne := apply_ne_zero t (Nat.mul_pos hn (Nat.two_pow_pos e))
      exact iff_of_false (by cases t <;> simp [UnpackedFloat.beq, UnpackedFloat.compare]) hne.symm
  | normal s m d hm hlow hhigh hrange =>
    have hpos := Nat.mul_pos hm (Nat.two_pow_pos d)
    cases hy with
    | zero t =>
      have hne := apply_ne_zero s hpos
      exact iff_of_false (by cases s <;> simp [UnpackedFloat.beq, UnpackedFloat.compare]) hne
    | normal t n e hn hlow' hhigh' hrange' =>
      rw [beq_finite_iff, apply_eq_apply_iff hpos]
      constructor
      · rintro ⟨rfl, rfl, hde⟩
        exact ⟨rfl, by rw [show d = e by omega]⟩
      · rintro ⟨rfl, hvalue⟩
        obtain ⟨rfl, rfl⟩ := significand_unique hlow hhigh hlow' hhigh' hvalue
        exact ⟨rfl, rfl, rfl⟩

end Stands

/-! ## Packing -/

@[simp] theorem ofBitVec_unpackSign (s : Sign) (e : BitVec 11) (m : BitVec 52) :
    Sign.ofBitVec (unpackSign (packComponents Format.binary64 s e m)) = s := by
  simp only [unpackSign, packComponents, BitVec.extractLsb]
  rw [BitVec.extractLsb'_append_eq_of_le (by omega),
    BitVec.extractLsb'_append_eq_of_le (by omega)]
  cases s <;> rfl

theorem append_leading {m : Nat} (hlow : 2 ^ 52 ≤ m) (hhigh : m < 2 ^ 53) :
    (1#1 ++ BitVec.ofNat 52 m).toNat = m := by
  rw [BitVec.toNat_append, ← Nat.shiftLeft_add_eq_or_of_lt (BitVec.ofNat 52 m).isLt,
    BitVec.toNat_ofNat, Nat.shiftLeft_eq]
  simp only [BitVec.toNat_ofNat]
  omega

theorem unpack_pack {u : UnpackedFloat} {v : Int} (h : Stands u v) :
    (Float.Model.pack u).unpack = u := by
  cases h with
  | zero s => cases s <;> rfl
  | normal s m e hm hlow hhigh hrange =>
    have hlog : m.log2 = 52 := (Nat.log2_eq_iff (by omega)).2 ⟨hlow, hhigh⟩
    have hbias : Format.binary64.exponentBias = 1023 := rfl
    have hbiased : ((e : Int) - 52 + Format.binary64.exponentBias +
        Format.binary64.mantissaBitsWithoutImplicit).toNat = e + 1023 := by
      rw [hbias]
      change ((e : Int) - 52 + 1023 + 52).toNat = e + 1023
      omega
    have hfits : (BitVec.ofNat 11 (e + 1023)).toNat = e + 1023 := by
      rw [BitVec.toNat_ofNat]
      omega
    have hother (b : BitVec 11) (hb : e + 1023 ≠ b.toNat) : BitVec.ofNat 11 (e + 1023) ≠ b := by
      rintro rfl
      exact hb hfits.symm
    have hfinite := hother (-1#11) (show e + 1023 ≠ 2047 by omega)
    have hnormal := hother 0#11 (show e + 1023 ≠ 0 by omega)
    unfold Float.Model.unpack Float.Model.pack
    simp only [UnpackedFloat.pack, hbiased, hlog]
    rw [if_neg (by omega), if_pos (by rfl)]
    simp only [UnpackedFloat.unpack, unpackMantissa_packComponents, unpackExponent_packComponents,
      ofBitVec_unpackSign, if_neg hfinite, if_neg hnormal, append_leading hlow hhigh, hfits]
    have hexponent : ((e + 1023 : Nat) : Int) - ((1023 : Nat) + (52 : Nat)) = e - 52 := by omega
    simp only [hbias, hexponent]

/-! ## Rounding to a double -/

/-- A mantissa with `k` bits too many loses them. -/
theorem shiftToTarget {m k e : Nat} {x : Int} (hlog : m.log2 = 52 + k) (hx : x = e - 52 - k) :
    shiftToTargetExponent Format.binary64 m x .exact =
      (ExtendedMantissa.ofMantissaAndAccuracy m .exact >>> k, (e : Int) - 52) := by
  have htarget : Format.binary64.targetExponent (totalExponent m x) = e - 52 := by
    simp only [Format.targetExponent, totalExponent, Format.mantissaBits, Format.minExponent, hlog]
    omega
  have hshift : ((e : Int) - 52 - x).toNat = k := by omega
  simp only [shiftToTargetExponent, shiftToExponent, htarget, hshift, Prod.mk.injEq, true_and]
  omega

theorem halfEven_range {m k : Nat} (hlog : m.log2 = 52 + k) :
    2 ^ 52 ≤ halfEven m k ∧ halfEven m k ≤ 2 ^ 53 := by
  have hm : m ≠ 0 := by
    rintro rfl
    simp at hlog
    omega
  obtain ⟨hlow, hhigh⟩ := (Nat.log2_eq_iff hm).1 hlog
  obtain ⟨hfloor, hceil⟩ := halfEven_bounds m k
  have hpos : 0 < 2 ^ k := Nat.two_pow_pos k
  have hquotient : 2 ^ 52 ≤ m / 2 ^ k := by
    rw [Nat.le_div_iff_mul_le hpos, ← Nat.pow_add]
    exact hlow
  have hbound : m / 2 ^ k < 2 ^ 53 := by
    rw [Nat.div_lt_iff_lt_mul hpos, ← Nat.pow_add, show 53 + k = 52 + k + 1 by omega]
    exact hhigh
  omega

/-- A mantissa of 53 bits or more is rounded half to even; one that grows by a bit is halved. -/
theorem round_eq (s : Sign) {m k e : Nat} {x : Int} (hlog : m.log2 = 52 + k)
    (hx : x = e - 52 - k) :
    ∃ (m' e' : Nat) (h : 0 < m'),
      roundWithAccuracy Format.binary64 s m x .exact = .finite s m' (e' - 52) h ∧
        2 ^ 52 ≤ m' ∧ m' < 2 ^ 53 ∧ m' * 2 ^ e' = halfEven m k * 2 ^ e := by
  obtain ⟨hlow, hhigh⟩ := halfEven_range hlog
  unfold roundWithAccuracy
  simp only [shiftToTarget hlog hx, roundedMantissa_shift]
  by_cases hsmall : halfEven m k < 2 ^ 53
  · have hlog' : (halfEven m k).log2 = 52 + 0 := (Nat.log2_eq_iff (by omega)).2 ⟨hlow, hsmall⟩
    have hkept : (ExtendedMantissa.ofMantissaAndAccuracy (halfEven m k) .exact >>> 0).mantissa =
        halfEven m k := rfl
    have hpos : halfEven m k ≠ 0 := by omega
    simp only [shiftToTarget hlog' (x := (e : Int) - 52) (e := e) (by omega), hkept, dif_neg hpos]
    exact ⟨_, e, Nat.pos_of_ne_zero hpos, rfl, hlow, hsmall, rfl⟩
  · -- rounding up carried into a bit too many; the second shift drops a zero
    have hcarried : halfEven m k = 2 ^ 53 := by omega
    have hhalved : (ExtendedMantissa.ofMantissaAndAccuracy (2 ^ 53) .exact >>> 1).mantissa =
        2 ^ 52 := rfl
    have hvalue : 2 ^ 52 * 2 ^ (e + 1) = 2 ^ 53 * 2 ^ e := by
      rw [← Nat.pow_add, ← Nat.pow_add]
      congr 1
      omega
    have hagain := shiftToTarget (m := 2 ^ 53) (k := 1) (e := e + 1) (x := (e : Int) - 52)
      Nat.log2_two_pow (by omega)
    simp only [hcarried, hagain, hhalved]
    exact ⟨2 ^ 52, e + 1, by decide, rfl, by decide, by decide, hvalue⟩

theorem stands_round (s : Sign) {m k e : Nat} {x : Int} (hlog : m.log2 = 52 + k)
    (hx : x = e - 52 - k) (hrange : e < 1024) (hcarry : halfEven m k = 2 ^ 53 → e + 1 < 1024) :
    Stands (roundWithAccuracy Format.binary64 s m x .exact)
      (s.apply (halfEven m k * 2 ^ e : Nat)) := by
  obtain ⟨m', e', hpos, hround, hlow, hhigh, hvalue⟩ := round_eq s hlog hx
  obtain ⟨hlow', hhigh'⟩ := halfEven_range hlog
  have hexponent : e' < 1024 := by
    by_cases hsmall : halfEven m k < 2 ^ 53
    · obtain ⟨-, rfl⟩ := significand_unique hlow hhigh hlow' hsmall hvalue
      exact hrange
    · have hcarried : halfEven m k = 2 ^ 53 := by omega
      have hhalved : 2 ^ 53 * 2 ^ e = 2 ^ 52 * 2 ^ (e + 1) := by
        rw [Nat.pow_succ 2 e]
        omega
      rw [hcarried, hhalved] at hvalue
      obtain ⟨-, rfl⟩ := significand_unique hlow hhigh (Nat.le_refl _) (by decide) hvalue
      exact hcarry hcarried
  rw [hround, ← hvalue]
  exact .normal s m' e' hpos hlow hhigh hexponent

theorem Stands.mul_one {u : UnpackedFloat} {v : Int} (h : Stands u v) :
    Stands (UnpackedFloat.mul Format.binary64 u
      (.finite .positive (2 ^ 52) (-52) (by decide))) v := by
  cases h with
  | zero s => exact .zero _
  | normal s m e hm hlow hhigh hrange =>
    have hsign : s * .positive = s := by cases s <;> rfl
    have hlog : (m * 2 ^ 52).log2 = 52 + 52 := log2_significand hlow hhigh 52
    have hexact : halfEven (m * 2 ^ 52) 52 = m := by
      rw [show 52 = 0 + 52 from rfl, halfEven_shift, halfEven_zero]
    have hround := stands_round s hlog (x := (e : Int) - 52 + -52) (e := e) (by omega) hrange
      (fun hcarry => by omega)
    rw [hexact] at hround
    simpa only [UnpackedFloat.mul, hsign] using hround

/-! ## Integers -/

theorem nearestNat_of_lt {n : Nat} (hn : n < 2 ^ 53) : nearestNat n = n := by
  have hlog : n.log2 - 52 = 0 := by
    by_cases hzero : n = 0
    · subst hzero
      rfl
    · have := (Nat.log2_lt hzero).2 hn
      omega
  simp [nearestNat, hlog]

/-- A natural number of 53 bits at most becomes a double by appending zero bits. -/
theorem stands_ofUInt64 {n : Nat} (hn : n < 2 ^ 53) :
    Stands (Float.Model.ofUInt64 n.toUInt64).unpack (n * 2 ^ 52 : Nat) := by
  have hword : n.toUInt64.toNat = n := by
    simp
    omega
  by_cases hzero : n = 0
  · subst hzero
    exact .zero .positive
  have hpositive : compare (n : Int) 0 = .gt := by
    rw [Int.compare_eq_gt]
    omega
  have hlog : n.log2 < 53 := (Nat.log2_lt hzero).2 hn
  have hfull : (n * 2 ^ (52 - n.log2)).log2 = 52 + 0 := by
    rw [log2_mul_two_pow (by omega)]
    omega
  have hround := stands_round .positive hfull (x := 0 - ((52 - n.log2 : Nat) : Int)) (e := n.log2)
    (by omega) (by omega) (fun _ => by omega)
  rw [halfEven_zero, Nat.mul_assoc, ← Nat.pow_add, show 52 - n.log2 + n.log2 = 52 by omega]
    at hround
  have hconvert : UnpackedFloat.ofUInt64 Format.binary64 n.toUInt64 =
      roundWithAccuracy Format.binary64 .positive (n * 2 ^ (52 - n.log2))
        (0 - ((52 - n.log2 : Nat) : Int)) .exact := by
    have htarget : Format.binary64.targetExponent (totalExponent n 0) = (n.log2 : Int) - 52 := by
      simp only [Format.targetExponent, totalExponent, Format.mantissaBits, Format.minExponent]
      omega
    have happend : (0 - ((n.log2 : Int) - 52)).toNat = 52 - n.log2 := by omega
    simp only [UnpackedFloat.ofUInt64, UnpackedFloat.ofNat, UnpackedFloat.ofInt,
      UnpackedFloat.normalize, hword, hpositive, UnpackedFloat.round, decreaseExponent,
      Int.toNat_natCast, htarget, happend, Nat.shiftLeft_eq]
  rw [Float.Model.ofUInt64, hconvert, unpack_pack hround]
  exact hround

/-- A natural number of more bits is rounded from a mantissa with 53 zero bits appended. -/
theorem toModel_ofNat {n : Nat} (hn : 2 ^ 53 ≤ n) : (Float.ofNat n).toModel = Float.Model.pack
    (roundWithAccuracy Format.binary64 .positive (n * 2 ^ 53) (-53) .exact) := by
  change (Float.ofScientific n false 0).toModel = _
  have hbits : Format.binary64.mantissaBits = 53 := rfl
  have hrange : ¬ Int.ofNat 0 < -(2 ^ 11 + (n.log2 : Int)) := by
    change ¬ (0 : Int) < -(2048 + n.log2)
    omega
  rw [Float.ofScientific, dif_neg (by omega)]
  simp only [Bool.false_eq_true, if_false, Float.Model.ofScientific, UnpackedFloat.ofScientific]
  rw [dif_neg (by omega), if_neg (by decide), if_neg hrange, if_pos (by decide)]
  simp only [UnpackedFloat.mul, hbits, Nat.shiftLeft_eq, Int.ofNat_eq_natCast,
    Int.toNat_natCast, Nat.pow_zero, Nat.mul_one, Int.add_zero]
  rfl

/-- The double of a natural number is the nearest one. -/
theorem stands_ofNat {n : Nat} (hn : n < 2 ^ 64) :
    Stands (Float.ofNat n).toModel.unpack (nearestNat n * 2 ^ 52 : Nat) := by
  by_cases hsmall : n < 2 ^ 53
  · -- a machine word is converted and multiplied by one
    have hone : (Float.ofBits 0x3FF0000000000000).toModel.unpack =
        .finite .positive (2 ^ 52) (-52) (by decide) := rfl
    have hfast : (Float.ofNat n).toModel =
        Float.Model.mul (Float.Model.ofUInt64 n.toUInt64)
          (Float.ofBits 0x3FF0000000000000).toModel := by
      change (Float.ofScientific n false 0).toModel = _
      rw [Float.ofScientific, dif_pos ⟨hsmall, by decide⟩]
      rfl
    have hproduct := (stands_ofUInt64 hsmall).mul_one
    rw [hfast, Float.Model.mul, hone, unpack_pack hproduct, nearestNat_of_lt hsmall]
    exact hproduct
  · have hlog : 53 ≤ n.log2 := (Nat.le_log2 (by omega)).2 (by omega)
    have hlog' : n.log2 < 64 := (Nat.log2_lt (by omega)).2 hn
    have hscaled : (n * 2 ^ 53).log2 = 52 + (n.log2 + 1) := by
      rw [log2_mul_two_pow (by omega)]
      omega
    have hround := stands_round .positive hscaled (x := -53) (e := n.log2) (by omega) (by omega)
      (fun _ => by omega)
    have hvalue : halfEven (n * 2 ^ 53) (n.log2 + 1) * 2 ^ n.log2 = nearestNat n * 2 ^ 52 := by
      rw [show n.log2 + 1 = n.log2 - 52 + 53 by omega, halfEven_shift, nearestNat, Nat.mul_assoc,
        ← Nat.pow_add, show n.log2 - 52 + 52 = n.log2 by omega]
    rw [hvalue] at hround
    rw [toModel_ofNat (by omega), unpack_pack hround]
    exact hround

theorem stands_neg {x : Float} {v : Int} (h : Stands x.toModel.unpack v) :
    Stands x.neg.toModel.unpack (-v) := by
  change Stands (Float.Model.pack x.toModel.unpack.neg).unpack (-v)
  rw [unpack_pack h.neg]
  exact h.neg

theorem stands_floatOfInt {n : Int} (hn : n.natAbs < 2 ^ 64) :
    Stands (Value.floatOfInt n).toModel.unpack (nearestInt n * 2 ^ 52) := by
  unfold Value.floatOfInt nearestInt
  split
  · rw [Int.neg_mul]
    exact stands_neg (stands_ofNat hn)
  · exact stands_ofNat (by omega)

theorem floatOfInt_beq_iff {a b : Int} (ha : a.natAbs < 2 ^ 64) (hb : b.natAbs < 2 ^ 64) :
    (Value.floatOfInt a == Value.floatOfInt b) = true ↔ nearestInt a = nearestInt b := by
  have h := (stands_floatOfInt ha).beq_iff (stands_floatOfInt hb)
  rw [Int.mul_eq_mul_right_iff (by decide)] at h
  exact h

theorem nearestInt_of_le {n : Int} (hn : n.natAbs ≤ 2 ^ 53) : nearestInt n = n := by
  have hnat (m : Nat) (hm : m ≤ 2 ^ 53) : nearestNat m = m := by
    by_cases hlt : m < 2 ^ 53
    · exact nearestNat_of_lt hlt
    · rw [show m = 2 ^ 53 by omega]
      decide +kernel
  unfold nearestInt
  split
  · rw [hnat _ hn]
    omega
  · rw [hnat _ (by omega)]
    omega

end RowMapper.Decimal
