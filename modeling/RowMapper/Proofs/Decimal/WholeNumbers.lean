import RowMapper.Proofs.Decimal.Shapes
import RowMapper.Decimal.Reader

/-! # Whole numbers as doubles

The double that is read for a whole number, written with or without zeros after a point, is
the nearest one: its leading 53 bits, or infinity when these are past the largest double. The
zeros after the point are divided away exactly before anything is rounded.
-/

namespace RowMapper.Decimal

open Float.Model Float.Model.UnpackedFloat

/-! ## Rounding with zero bits appended -/

/-- Appended zero bits are dropped before any bit of the number is. -/
theorem halfEven_scaled {n t : Nat} (hbits : 52 ≤ n.log2 + t) :
    halfEven (n * 2 ^ t) (n.log2 + t - 52) * 2 ^ n.log2 = nearestNat n * 2 ^ 52 := by
  by_cases hlarge : 52 ≤ n.log2
  · rw [show n.log2 + t - 52 = n.log2 - 52 + t by omega, halfEven_shift, nearestNat,
      Nat.mul_assoc, ← Nat.pow_add, Nat.sub_add_cancel hlarge]
  · have hsmall : n < 2 ^ 53 := by
      by_contra hge
      have := (Nat.le_log2 (show n ≠ 0 by omega)).2 (Nat.le_of_not_lt hge)
      omega
    have hsplit : n * 2 ^ t = n * 2 ^ (52 - n.log2) * 2 ^ (n.log2 + t - 52) := by
      rw [Nat.mul_assoc, ← Nat.pow_add]
      congr 2
      omega
    have hdropped := halfEven_shift (n * 2 ^ (52 - n.log2)) 0 (n.log2 + t - 52)
    rw [Nat.zero_add, halfEven_zero] at hdropped
    rw [hsplit, hdropped, nearestNat_of_lt hsmall, Nat.mul_assoc, ← Nat.pow_add,
      Nat.sub_add_cancel (by omega)]

theorem round_scaled {n t : Nat} (hn : 0 < n) (hbits : 52 ≤ n.log2 + t) :
    ∃ (m e : Nat) (h : 0 < m),
      roundWithAccuracy Format.binary64 .positive (n * 2 ^ t) (-t) .exact =
        .finite .positive m (e - 52) h ∧
      2 ^ 52 ≤ m ∧ m < 2 ^ 53 ∧ m * 2 ^ e = nearestNat n * 2 ^ 52 := by
  have hlog : (n * 2 ^ t).log2 = 52 + (n.log2 + t - 52) := by
    rw [log2_mul_two_pow hn]
    omega
  have hround := round_eq .positive hlog (x := -t) (e := n.log2) (by omega)
  rwa [halfEven_scaled hbits] at hround

theorem unpack_pack_overflow {m e : Nat} (h : 0 < m) (hrange : 1024 ≤ e) :
    (Float.Model.pack (.finite .positive m (e - 52) h)).unpack = .infinity .positive := by
  have hlarge : 2 ^ Format.binary64.exponentBits ≤ ((e : Int) - 52 + Format.binary64.exponentBias +
      Format.binary64.mantissaBitsWithoutImplicit).toNat + 1 := by
    change 2048 ≤ ((e : Int) - 52 + 1023 + 52).toNat + 1
    omega
  have hpacked : UnpackedFloat.pack Format.binary64 (.finite .positive m (e - 52) h) =
      packedInfinity Format.binary64 .positive := by
    simp only [UnpackedFloat.pack, if_pos hlarge]
  unfold Float.Model.pack Float.Model.unpack
  simp only [hpacked]
  rfl

/-! ## Nearest doubles -/

/-- The double nearest to an integer; infinity past the largest double. -/
inductive IsNearest (x : Float) (n : Int) : Prop
  | finite (hsmall : (nearestInt n).natAbs < 2 ^ 1024)
      (h : Stands x.toModel.unpack (nearestInt n * 2 ^ 52))
  | infinite (s : Sign) (hlarge : 2 ^ 1024 ≤ (nearestInt n).natAbs)
      (h : x.toModel.unpack = .infinity s)

@[simp] theorem nearestInt_natCast (n : Nat) : nearestInt n = nearestNat n := by
  simp [nearestInt]

theorem natAbs_nearestInt (n : Int) : (nearestInt n).natAbs = nearestNat n.natAbs := by
  unfold nearestInt
  split
  · rw [Int.natAbs_neg, Int.natAbs_natCast]
  · rw [Int.natAbs_natCast, show n.toNat = n.natAbs by omega]

theorem nearestInt_neg (n : Int) : nearestInt (-n) = -nearestInt n := by
  unfold nearestInt
  rcases Int.lt_trichotomy n 0 with hn | rfl | hn
  · rw [if_neg (by omega), if_pos hn, show (-n).toNat = n.natAbs by omega, Int.neg_neg]
  · rfl
  · rw [if_pos (by omega), if_neg (by omega), show (-n).natAbs = n.toNat by omega]

variable {x : Float} {n t : Nat}

/-- The exponent of a significand tells how large the number is. -/
theorem lt_two_pow_iff {m e v : Nat} (hlow : 2 ^ 52 ≤ m) (hhigh : m < 2 ^ 53)
    (hvalue : m * 2 ^ e = v * 2 ^ 52) (k : Nat) : v < 2 ^ k ↔ e < k := by
  have hpos : v ≠ 0 := by
    rintro rfl
    have := Nat.mul_pos (show 0 < m by omega) (Nat.two_pow_pos e)
    omega
  have hlog := congrArg Nat.log2 hvalue
  rw [log2_significand hlow hhigh, log2_mul_two_pow (Nat.pos_of_ne_zero hpos)] at hlog
  rw [← Nat.log2_lt hpos]
  omega

/-- A number of 53 significant bits is rounded to itself. -/
theorem nearestNat_of_significand {m e v : Nat} (hlow : 2 ^ 52 ≤ m) (hhigh : m < 2 ^ 53)
    (hvalue : m * 2 ^ e = v * 2 ^ 52) : nearestNat v = v := by
  have hsize := lt_two_pow_iff hlow hhigh hvalue
  by_cases hsmall : e < 53
  · exact nearestNat_of_lt ((hsize 53).2 hsmall)
  · have hv : v = m * 2 ^ (e - 52) := by
      refine Nat.eq_of_mul_eq_mul_right (Nat.two_pow_pos 52) ?_
      rw [← hvalue, Nat.mul_assoc, ← Nat.pow_add, Nat.sub_add_cancel (by omega)]
    have hlog : v.log2 - 52 = e - 52 := by
      rw [hv, log2_significand hlow hhigh]
      omega
    have hdropped := halfEven_shift m 0 (e - 52)
    rw [Nat.zero_add, halfEven_zero] at hdropped
    rw [nearestNat, hlog]
    conv_lhs => rw [hv, hdropped]
    exact hv.symm

/-- The integer that a double stands for is rounded to itself. -/
theorem nearestInt_of_stands {u : UnpackedFloat} {n : Int} (h : Stands u (n * 2 ^ 52)) :
    nearestInt n = n := by
  generalize hv : n * 2 ^ 52 = v at h
  have hexact : nearestNat n.natAbs = n.natAbs := by
    cases h with
    | zero s =>
      obtain rfl : n = 0 := by omega
      rfl
    | normal s m e hm hlow hhigh hrange =>
      refine nearestNat_of_significand (m := m) (e := e) hlow hhigh ?_
      rw [← natAbs_apply s (m * 2 ^ e), ← hv, Int.natAbs_mul]
      rfl
  unfold nearestInt
  split
  · rw [hexact]
    omega
  · rw [show n.toNat = n.natAbs by omega, hexact]
    omega

/-- What is rounded from a whole number with zero bits appended is the nearest double. -/
theorem isNearest_of_round (hn : 0 < n) (hbits : 52 ≤ n.log2 + t)
    (hx : x.toModel = Float.Model.pack
      (roundWithAccuracy Format.binary64 .positive (n * 2 ^ t) (-t) .exact)) :
    IsNearest x n := by
  obtain ⟨m, e, hpos, hround, hlow, hhigh, hvalue⟩ := round_scaled hn hbits
  have hsize := lt_two_pow_iff hlow hhigh hvalue 1024
  rw [hround] at hx
  by_cases hrange : e < 1024
  · have hstands := Stands.normal .positive m e hpos hlow hhigh hrange
    rw [hvalue] at hstands
    refine .finite (by rw [nearestInt_natCast]; exact hsize.2 hrange) ?_
    rw [hx, unpack_pack hstands, nearestInt_natCast]
    exact hstands
  · refine .infinite .positive ?_ (by rw [hx, unpack_pack_overflow hpos (Nat.le_of_not_lt hrange)])
    rw [nearestInt_natCast]
    exact Nat.le_of_not_lt (mt hsize.1 hrange)

theorem IsNearest.neg {x : Float} {n : Int} (h : IsNearest x n) : IsNearest x.neg (-n) := by
  cases h with
  | finite hsmall h =>
    refine .finite (by rwa [nearestInt_neg, Int.natAbs_neg]) ?_
    rw [nearestInt_neg, Int.neg_mul]
    exact stands_neg h
  | infinite s hlarge h =>
    refine .infinite (-s) (by rwa [nearestInt_neg, Int.natAbs_neg]) ?_
    change (Float.Model.pack x.toModel.unpack.neg).unpack = .infinity (-s)
    rw [h]
    cases s <;> rfl

theorem isNearest_of_lt {n : Nat} (hsmall : n < 2 ^ 53)
    (h : Stands x.toModel.unpack (n * 2 ^ 52 : Nat)) : IsNearest x n := by
  have hbelow : n < 2 ^ 1024 := by omega
  refine .finite ?_ ?_
  · rw [nearestInt_natCast, nearestNat_of_lt hsmall]
    exact hbelow
  · rw [nearestInt_natCast, nearestNat_of_lt hsmall]
    exact h

theorem isNearest_ofNat (n : Nat) : IsNearest (Float.ofNat n) n := by
  by_cases hsmall : n < 2 ^ 53
  · have hstands := stands_ofNat (n := n) (by omega)
    rw [nearestNat_of_lt hsmall] at hstands
    exact isNearest_of_lt hsmall hstands
  · have hlog : 53 ≤ n.log2 := (Nat.le_log2 (by omega)).2 (by omega)
    exact isNearest_of_round (t := 53) (by omega) (by omega) (toModel_ofNat (by omega))

/-! ## Dividing by a power of ten -/

theorem log2_mul_bounds {a b : Nat} (ha : 0 < a) (hb : 0 < b) :
    a.log2 + b.log2 ≤ (a * b).log2 ∧ (a * b).log2 ≤ a.log2 + b.log2 + 1 := by
  have hab : a * b ≠ 0 := Nat.mul_ne_zero (by omega) (by omega)
  obtain ⟨halow, hahigh⟩ := (Nat.log2_eq_iff (Nat.ne_of_gt ha)).1 rfl
  obtain ⟨hblow, hbhigh⟩ := (Nat.log2_eq_iff (Nat.ne_of_gt hb)).1 rfl
  constructor
  · rw [Nat.le_log2 hab, Nat.pow_add]
    exact Nat.mul_le_mul halow hblow
  · rw [← Nat.lt_succ_iff, Nat.log2_lt hab,
      show (a.log2 + b.log2 + 1).succ = a.log2 + 1 + (b.log2 + 1) by omega, Nat.pow_add]
    exact Nat.mul_lt_mul'' hahigh hbhigh

/-- A quotient that is whole is found exactly, with zero bits up to the full width. -/
theorem divCore_exact {n m₁ m₂ d₁ d₂ : Nat} {x₁ x₂ : Int} (hn : 0 < n) (hm₁ : 0 < m₁)
    (hm₂ : 0 < m₂) (hx : x₁ - x₂ = d₁ - d₂) (hvalue : m₁ * 2 ^ d₁ = n * m₂ * 2 ^ d₂)
    (hbelow : x₁ ≤ x₂ ∨ n.log2 < 53) :
    ∃ t, 52 ≤ n.log2 + t ∧
      divCore Format.binary64 m₁ x₁ m₂ x₂ = (n * 2 ^ t, -(t : Int), .exact) := by
  have hlog : m₁.log2 + d₁ = (n * m₂).log2 + d₂ := by
    rw [← log2_mul_two_pow hm₁, hvalue, log2_mul_two_pow (Nat.mul_pos hn hm₂)]
  obtain ⟨hlow, hhigh⟩ := log2_mul_bounds hn hm₂
  obtain ⟨t, htarget, hbits⟩ : ∃ t : Nat,
      min (x₁ - x₂) (Format.binary64.targetExponent (totalExponent m₁ x₁ - totalExponent m₂ x₂)) =
        -(t : Int) ∧ 52 ≤ n.log2 + t := by
    simp only [Format.targetExponent, totalExponent, Format.mantissaBits, Format.minExponent]
    generalize htarget : min (x₁ - x₂) _ = target
    exact ⟨target.natAbs, by omega, by omega⟩
  refine ⟨t, hbits, ?_⟩
  have hshift : m₁ * 2 ^ (x₁ - x₂ - -(t : Int)).toNat = n * 2 ^ t * m₂ := by
    refine Nat.eq_of_mul_eq_mul_right (Nat.two_pow_pos d₂) ?_
    calc m₁ * 2 ^ (x₁ - x₂ - -(t : Int)).toNat * 2 ^ d₂
        = m₁ * 2 ^ d₁ * 2 ^ t := by
          rw [Nat.mul_assoc, Nat.mul_assoc, ← Nat.pow_add, ← Nat.pow_add]
          congr 2
          omega
      _ = n * 2 ^ t * m₂ * 2 ^ d₂ := by
          rw [hvalue]
          ring
  simp only [divCore, htarget, Nat.shiftLeft_eq, hshift, Nat.mul_div_cancel _ hm₂,
    Nat.mul_mod_left, accuracyOfFraction, if_true]

/-- A whole quotient of two finite doubles is the nearest double. -/
theorem isNearest_of_div {n m₁ m₂ d₁ d₂ : Nat} {x₁ x₂ : Int} (hn : 0 < n) (hm₁ : 0 < m₁)
    (hm₂ : 0 < m₂) (hx : x₁ - x₂ = d₁ - d₂) (hvalue : m₁ * 2 ^ d₁ = n * m₂ * 2 ^ d₂)
    (hbelow : x₁ ≤ x₂ ∨ n.log2 < 53)
    (hmodel : x.toModel = Float.Model.pack (UnpackedFloat.div Format.binary64
      (.finite .positive m₁ x₁ hm₁) (.finite .positive m₂ x₂ hm₂))) :
    IsNearest x n := by
  obtain ⟨t, hbits, hquotient⟩ := divCore_exact hn hm₁ hm₂ hx hvalue hbelow
  simp only [UnpackedFloat.div, hquotient] at hmodel
  exact isNearest_of_round hn hbits hmodel

/-- A positive whole number that is a double is finite. -/
theorem Stands.exists_finite {u : UnpackedFloat} {n : Nat} (hn : 0 < n)
    (h : Stands u (n * 2 ^ 52 : Nat)) :
    ∃ (m d : Nat) (hm : 0 < m), u = .finite .positive m (d - 52) hm ∧ m * 2 ^ d = n * 2 ^ 52 := by
  generalize hv : ((n * 2 ^ 52 : Nat) : Int) = v at h
  cases h with
  | zero s => omega
  | normal s m e hm hlow hhigh hrange =>
    cases s with
    | positive => exact ⟨m, e, hm, rfl, (Int.ofNat_inj.1 hv).symm⟩
    | negative =>
      simp only [Sign.apply] at hv
      omega

theorem toModel_powerOfTen : ∀ k : Fin Float.exactlyRepresentablePowersOfTen.size,
    Float.exactlyRepresentablePowersOfTen[k].toModel = (Float.ofNat (10 ^ k.val)).toModel ∧
      nearestNat (10 ^ k.val) = 10 ^ k.val ∧ 10 ^ k.val < 2 ^ 1024 := by
  decide +kernel

theorem stands_powerOfTen {k : Nat} (hk : k < Float.exactlyRepresentablePowersOfTen.size) :
    Stands Float.exactlyRepresentablePowersOfTen[k].toModel.unpack (10 ^ k * 2 ^ 52 : Nat) := by
  obtain ⟨hmodel, hexact, hbelow⟩ := toModel_powerOfTen ⟨k, hk⟩
  rw [Fin.getElem_fin] at hmodel
  rw [hmodel]
  cases isNearest_ofNat (10 ^ k) with
  | finite hsmall h =>
    rw [nearestInt_natCast, hexact] at h
    exact h
  | infinite s hlarge h =>
    rw [nearestInt_natCast, hexact] at hlarge
    exact absurd hbelow (Nat.not_lt.2 hlarge)

/-! ## Digits with zeros after the point -/

theorem log2_lt_of_mul_lt {n k : Nat} (hn : 0 < n) (h : n * 10 ^ k < 2 ^ 53) : n.log2 < 53 := by
  have hle : n ≤ n * 10 ^ k := Nat.le_mul_of_pos_right n (Nat.pow_pos (by decide))
  exact (Nat.log2_lt (by omega)).2 (by omega)

/-- Zeros after the point are divided away before rounding. -/
theorem isNearest_ofScientific {n k : Nat} (hn : 0 < n) (hk : 0 < k) :
    IsNearest (Float.ofScientific (n * 10 ^ k) true k) n := by
  have hten : 0 < 10 ^ k := Nat.pow_pos (by decide)
  have hpos : 0 < n * 10 ^ k := Nat.mul_pos hn hten
  by_cases hsmall : n * 10 ^ k < 2 ^ 53 ∧ k ≤ 22
  · have hindex : k < Float.exactlyRepresentablePowersOfTen.size :=
      Nat.lt_of_le_of_lt hsmall.2 (by decide)
    obtain ⟨m₁, d₁, hm₁, hnumerator, hvalue₁⟩ := (stands_ofUInt64 hsmall.1).exists_finite hpos
    obtain ⟨m₂, d₂, hm₂, hdivisor, hvalue₂⟩ := (stands_powerOfTen hindex).exists_finite hten
    have hvalue : m₁ * 2 ^ d₁ = n * m₂ * 2 ^ d₂ := by
      rw [hvalue₁, Nat.mul_assoc n m₂, hvalue₂, Nat.mul_assoc]
    have hquotient : (Float.ofScientific (n * 10 ^ k) true k).toModel =
        Float.Model.div (Float.Model.ofUInt64 (n * 10 ^ k).toUInt64)
          Float.exactlyRepresentablePowersOfTen[k].toModel := by
      rw [Float.ofScientific, dif_pos hsmall]
      rfl
    have hexponents : ((d₁ : Int) - 52) - ((d₂ : Int) - 52) = d₁ - d₂ := by omega
    refine isNearest_of_div hn hm₁ hm₂ hexponents hvalue
      (.inr (log2_lt_of_mul_lt hn hsmall.1)) ?_
    rw [hquotient, Float.Model.div, hnumerator, hdivisor]
  · have hexponents : (0 : Int) - 0 = (0 : Nat) - (0 : Nat) := rfl
    refine isNearest_of_div hn hpos hten hexponents rfl (.inl (Int.le_refl 0)) ?_
    have hexponent : Int.negOfNat k = -(k : Int) := rfl
    have hlog : k ≤ (n * 10 ^ k).log2 := by
      rw [Nat.le_log2 (by omega)]
      calc 2 ^ k ≤ 10 ^ k := Nat.pow_le_pow_left (by decide) k
        _ ≤ n * 10 ^ k := Nat.le_mul_of_pos_left _ hn
    have hrange : ¬ -(k : Int) < -(2 ^ 11 + ((n * 10 ^ k).log2 : Int)) := by omega
    rw [Float.ofScientific, dif_neg hsmall]
    simp only [if_true, Float.Model.ofScientific, UnpackedFloat.ofScientific, hexponent]
    rw [dif_neg (by omega), if_neg (by omega), if_neg hrange, if_neg (by omega)]
    simp only [Int.neg_neg, Int.toNat_natCast]

/-- The double that is read for the digits of a whole number and zeros is the nearest one. -/
theorem isNearest_nearestDouble (n : Nat) {k count : Nat} (hcount : k ≤ count) :
    IsNearest (nearestDouble (n * 10 ^ k) count (-(k : Int))) n := by
  unfold nearestDouble
  by_cases hzero : n = 0
  · subst hzero
    rw [if_pos (by simp)]
    exact isNearest_ofNat 0
  have hpos : 0 < n * 10 ^ k := Nat.mul_pos (Nat.pos_of_ne_zero hzero) (Nat.pow_pos (by decide))
  have hfirst : ¬ (decide (n * 10 ^ k = 0) || decide (-(k : Int) + count < -400)) = true := by
    simp only [Bool.or_eq_true, decide_eq_true_eq]
    omega
  rw [if_neg hfirst, if_neg (by omega)]
  by_cases hplaces : k = 0
  · subst hplaces
    rw [if_pos (by decide), Nat.pow_zero, Nat.mul_one]
    exact isNearest_ofNat n
  · rw [if_neg (by omega), Int.natAbs_neg, Int.natAbs_natCast]
    exact isNearest_ofScientific (Nat.pos_of_ne_zero hzero) (Nat.pos_of_ne_zero hplaces)

/-! ## Past the largest double -/

/-- Rounding stays between the powers of two around the number. -/
theorem nearestNat_bounds {n : Nat} (hlog : 52 ≤ n.log2) :
    2 ^ n.log2 ≤ nearestNat n ∧ nearestNat n ≤ 2 ^ (n.log2 + 1) := by
  obtain ⟨hlow, hhigh⟩ := halfEven_range (m := n) (k := n.log2 - 52) (by omega)
  have hlow' := Nat.mul_le_mul_right (2 ^ (n.log2 - 52)) hlow
  have hhigh' := Nat.mul_le_mul_right (2 ^ (n.log2 - 52)) hhigh
  rw [← Nat.pow_add, show 52 + (n.log2 - 52) = n.log2 by omega] at hlow'
  rw [← Nat.pow_add, show 53 + (n.log2 - 52) = n.log2 + 1 by omega] at hhigh'
  exact ⟨hlow', hhigh'⟩

theorem two_pow_split (k : Nat) : 2 ^ (k + 54) = 2 ^ 53 * 2 ^ (k + 1) := by
  rw [show k + 54 = 53 + (k + 1) by omega, Nat.pow_add]

/-- The significand is rounded up to one more bit from half a last place before it. -/
theorem two_pow_le_halfEven_iff {n k : Nat} (hn : n < 2 ^ (k + 54)) :
    2 ^ 53 ≤ halfEven n (k + 1) ↔ 2 ^ (k + 54) ≤ n + 2 ^ k := by
  have hscale := two_pow_split k
  have hdouble : 2 ^ (k + 1) = 2 * 2 ^ k := Nat.pow_succ'
  have hpos : 0 < 2 ^ (k + 1) := Nat.two_pow_pos _
  have hsplit := Nat.div_add_mod n (2 ^ (k + 1))
  have hrest := Nat.mod_lt n hpos
  have hquotient : n / 2 ^ (k + 1) < 2 ^ 53 := by
    rw [Nat.div_lt_iff_lt_mul hpos, ← hscale]
    exact hn
  obtain ⟨-, hceil⟩ := halfEven_bounds n (k + 1)
  by_cases hlast : n / 2 ^ (k + 1) = 2 ^ 53 - 1
  · -- the last significand is odd, so a tie goes up as well
    unfold halfEven
    rw [hlast] at hsplit ⊢
    split
    · omega
    · split <;> omega
  · have hnext : n / 2 ^ (k + 1) + 1 ≤ 2 ^ 53 - 1 := by omega
    have hbelow := Nat.mul_le_mul_left (2 ^ (k + 1)) hnext
    rw [Nat.mul_succ] at hbelow
    omega

theorem two_pow_le_nearestNat_iff (n k : Nat) :
    2 ^ (k + 54) ≤ nearestNat n ↔ 2 ^ (k + 54) ≤ n + 2 ^ k := by
  have hpos := Nat.two_pow_pos k
  have hstep : 2 ^ (k + 54) = 2 * 2 ^ (k + 53) := Nat.pow_succ'
  have hbelow : 2 ^ k < 2 ^ (k + 53) := Nat.pow_lt_pow_right (by decide) (by omega)
  by_cases hsmall : n < 2 ^ 53
  · have hgrow : 2 ^ 53 ≤ 2 ^ (k + 53) := Nat.pow_le_pow_right (by decide) (by omega)
    rw [nearestNat_of_lt hsmall]
    omega
  have hne : n ≠ 0 := by omega
  have hlog : 53 ≤ n.log2 := (Nat.le_log2 hne).2 (by omega)
  obtain ⟨hlow, hhigh⟩ := nearestNat_bounds (n := n) (by omega)
  rcases Nat.lt_trichotomy n.log2 (k + 53) with hless | hequal | hmore
  · have hn : n < 2 ^ (k + 53) := (Nat.log2_lt hne).1 hless
    have hround : 2 ^ (n.log2 + 1) ≤ 2 ^ (k + 53) := Nat.pow_le_pow_right (by decide) (by omega)
    omega
  · have hn : n < 2 ^ (k + 54) := (Nat.log2_lt hne).1 (by omega)
    have hscale : 0 < 2 ^ (k + 1) := Nat.two_pow_pos _
    rw [← two_pow_le_halfEven_iff hn, nearestNat, hequal, show k + 53 - 52 = k + 1 by omega,
      two_pow_split, Nat.mul_le_mul_right_iff hscale]
  · have hn : 2 ^ (k + 54) ≤ n := (Nat.le_log2 hne).1 (by omega)
    have hround : 2 ^ (k + 54) ≤ 2 ^ n.log2 := Nat.pow_le_pow_right (by decide) (by omega)
    omega

/-! ## Between the ends of 64 bits -/

/-- An integral double between the ends of 64 bits, `2 ^ 63` included. -/
def IsWhole64 (x : Float) : Prop :=
  ∃ d, shape x = .finite d ∧ d.isIntegral = true ∧ d.magnitude ≤ 2 ^ 63

theorem isWhole64_iff {x : Float} {n : Int} (h : Stands x.toModel.unpack (n * 2 ^ 52)) :
    IsWhole64 x ↔ n.natAbs ≤ 2 ^ 63 := by
  obtain ⟨d, hshape, hintegral, htruncate⟩ := shape_of_stands h
  have hmagnitude : d.magnitude = n.natAbs := by
    rw [← htruncate, Dyadic.truncate]
    split <;> omega
  constructor
  · rintro ⟨e, he, -, hle⟩
    cases hshape.symm.trans he
    rwa [← hmagnitude]
  · intro hle
    exact ⟨d, hshape, hintegral, by rwa [hmagnitude]⟩

theorem nearestNat_le {n : Nat} (hn : n ≤ 2 ^ 63) : nearestNat n ≤ 2 ^ 63 := by
  by_cases hsmall : n < 2 ^ 53
  · rw [nearestNat_of_lt hsmall]
    exact hn
  by_cases hend : n = 2 ^ 63
  · rw [hend]
    decide +kernel
  have hne : n ≠ 0 := by omega
  have hlow : 53 ≤ n.log2 := (Nat.le_log2 hne).2 (by omega)
  have hhigh : n.log2 < 63 := (Nat.log2_lt hne).2 (by omega)
  exact Nat.le_trans (nearestNat_bounds (by omega)).2 (Nat.pow_le_pow_right (by decide) (by omega))

theorem natAbs_nearestInt_le {n : Int} (hn : fitsInt64 n) : (nearestInt n).natAbs ≤ 2 ^ 63 := by
  rw [fitsInt64_iff, int64Min, int64Max] at hn
  rw [natAbs_nearestInt]
  exact nearestNat_le (by omega)

theorem IsNearest.stands {x : Float} {n : Int} (h : IsNearest x n) (hn : fitsInt64 n) :
    Stands x.toModel.unpack (nearestInt n * 2 ^ 52) := by
  cases h with
  | finite _ h => exact h
  | infinite _ hlarge _ =>
    have := natAbs_nearestInt_le hn
    omega

theorem stands_floatOfInt_of_fits {n : Int} (hn : fitsInt64 n) :
    Stands (Value.floatOfInt n).toModel.unpack (nearestInt n * 2 ^ 52) := by
  rw [fitsInt64_iff, int64Min, int64Max] at hn
  exact stands_floatOfInt (by omega)

/-- An integral double is the double of its integer in 64 bits just when it lies between them. -/
theorem beq_clamped_iff {x : Float} (h : isIntegral x = true) :
    (x == Value.floatOfInt (toInt64Clamped x)) = true ↔ IsWhole64 x := by
  obtain ⟨n, hstands⟩ := exists_stands_of_isIntegral h
  have hfits := clampInt64_fits n
  have hsame := hstands.beq_iff (stands_floatOfInt_of_fits hfits)
  rw [Int.mul_eq_mul_right_iff (by decide)] at hsame
  rw [toInt64Clamped_of_stands hstands, isWhole64_iff hstands]
  refine hsame.trans ⟨fun hn => ?_, fun hn => ?_⟩
  · rw [hn]
    exact natAbs_nearestInt_le hfits
  · by_cases hend : n = 2 ^ 63
    · rw [hend]
      decide +kernel
    · have hinside : fitsInt64 n := by
        rw [fitsInt64_iff, int64Min, int64Max]
        omega
      rw [clampInt64_eq hinside, nearestInt_of_stands hstands]

theorem IsWhole64.isIntegral {x : Float} (h : IsWhole64 x) : isIntegral x = true := by
  obtain ⟨d, hshape, hintegral, -⟩ := h
  rw [Decimal.isIntegral, hshape]
  exact hintegral

end RowMapper.Decimal
