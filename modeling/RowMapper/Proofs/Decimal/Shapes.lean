import RowMapper.Proofs.Decimal.Integers

/-! # Shapes of doubles

A double is decoded from its bits as an exact fraction; it is also unpacked for arithmetic.
Both say the same of it, so what is known of a double that stands for an integer carries over
to its integrality and to its integer part.
-/

namespace RowMapper.Decimal

open Float.Model Float.Model.UnpackedFloat

def isNegative : Sign → Bool
  | .negative => true
  | .positive => false

def shapeOf : UnpackedFloat → FloatShape
  | .notANumber => .nan
  | .infinity s => .infinite (isNegative s)
  | .zero s => .finite ⟨isNegative s, 0, -1074⟩
  | .finite s m e _ => .finite ⟨isNegative s, m, e⟩

theorem toNat_unpackMantissa (b : BitVec 64) :
    (@unpackMantissa Format.binary64 b).toNat = b.toNat % 2 ^ 52 := by
  simp [unpackMantissa, BitVec.extractLsb]

theorem toNat_unpackExponent (b : BitVec 64) :
    (@unpackExponent Format.binary64 b).toNat = b.toNat / 2 ^ 52 % 2 ^ 11 := by
  simp [unpackExponent, BitVec.extractLsb, Nat.shiftRight_eq_div_pow]

theorem isNegative_unpackSign (b : BitVec 64) :
    isNegative (Sign.ofBitVec (@unpackSign Format.binary64 b)) =
      (b.toNat / 2 ^ 63 == 1) := by
  have hsign : (@unpackSign Format.binary64 b).toNat = b.toNat / 2 ^ 63 := by
    have := b.isLt
    simp [unpackSign, BitVec.extractLsb, Nat.shiftRight_eq_div_pow]
    omega
  have hzero : @unpackSign Format.binary64 b = 0#1 ↔ b.toNat / 2 ^ 63 = 0 := by
    rw [← hsign, ← BitVec.toNat_inj]
    rfl
  have hbit := (@unpackSign Format.binary64 b).isLt
  rw [hsign] at hbit
  unfold Sign.ofBitVec
  split
  · next h =>
    rw [hzero.1 h]
    rfl
  · next h =>
    have hone : b.toNat / 2 ^ 63 = 1 := by
      have := mt hzero.2 h
      omega
    rw [hone]
    rfl

/-- The bits of a double tell the shape that it is unpacked to. -/
theorem shapeOfBits_eq (b : BitVec 64) :
    shapeOfBits b.toNat = shapeOf (UnpackedFloat.unpack Format.binary64 b) := by
  have hexponent := toNat_unpackExponent b
  have hmantissa := toNat_unpackMantissa b
  have hsign := isNegative_unpackSign b
  have hones : @unpackExponent Format.binary64 b = -1#11 ↔
      b.toNat / 2 ^ 52 % 2 ^ 11 = 2047 := by
    rw [← hexponent, ← BitVec.toNat_inj]
    rfl
  have hzeros : @unpackExponent Format.binary64 b = 0#11 ↔
      b.toNat / 2 ^ 52 % 2 ^ 11 = 0 := by
    rw [← hexponent, ← BitVec.toNat_inj]
    rfl
  have hnone : @unpackMantissa Format.binary64 b = 0#52 ↔ b.toNat % 2 ^ 52 = 0 := by
    rw [← hmantissa, ← BitVec.toNat_inj]
    rfl
  have hbias : (Format.binary64.exponentBias : Int) + (52 : Nat) = 1075 := rfl
  unfold shapeOfBits UnpackedFloat.unpack
  simp only [Nat.pow_eq]
  by_cases hinfinite : b.toNat / 2 ^ 52 % 2 ^ 11 = 2047
  · rw [if_pos hinfinite, if_pos (hones.2 hinfinite)]
    by_cases hfraction : b.toNat % 2 ^ 52 = 0
    · rw [if_pos hfraction, if_pos (hnone.2 hfraction), shapeOf, hsign]
    · rw [if_neg hfraction, if_neg (mt hnone.1 hfraction), shapeOf]
  · rw [if_neg hinfinite, if_neg (mt hones.1 hinfinite)]
    by_cases hsmall : b.toNat / 2 ^ 52 % 2 ^ 11 = 0
    · rw [if_pos hsmall, if_pos (hzeros.2 hsmall)]
      by_cases hfraction : b.toNat % 2 ^ 52 = 0
      · rw [dif_pos (hnone.2 hfraction), shapeOf, hsign, hfraction]
      · rw [dif_neg (mt hnone.1 hfraction), shapeOf, hsign, hmantissa, hexponent, hsmall, hbias]
        rfl
    · have hleading : (1#1 ++ @unpackMantissa Format.binary64 b).toNat =
          b.toNat % 2 ^ 52 + 2 ^ 52 := by
        have hkept : BitVec.ofNat 52 (b.toNat % 2 ^ 52 + 2 ^ 52) =
            @unpackMantissa Format.binary64 b := by
          rw [← BitVec.toNat_inj, BitVec.toNat_ofNat, hmantissa]
          omega
        rw [← hkept, append_leading (by omega) (by omega)]
      rw [if_neg hsmall, if_neg (mt hzeros.1 hsmall), shapeOf, hsign, hexponent, hbias, hleading]

theorem shape_eq (x : Float) : shape x = shapeOf x.toModel.unpack := shapeOfBits_eq _

/-! ## Doubles that stand for integers -/

variable {x : Float} {n : Int}

/-- A significand with the number it stands for: both sides are scaled by `2 ^ 52`. -/
theorem magnitude_of_scaled {d : Dyadic} {e k : Nat} (hexponent : d.exponent = e - 52)
    (hvalue : d.mantissa * 2 ^ e = k * 2 ^ 52) : d.isIntegral = true ∧ d.magnitude = k := by
  unfold Dyadic.isIntegral Dyadic.magnitude
  simp only [Nat.pow_eq, hexponent]
  by_cases hsmall : e < 52
  · have hscale : d.mantissa = k * 2 ^ (52 - e) := by
      refine Nat.eq_of_mul_eq_mul_right (Nat.two_pow_pos e) ?_
      rw [hvalue, Nat.mul_assoc, ← Nat.pow_add, Nat.sub_add_cancel (by omega)]
    have habs : ((e : Int) - 52).natAbs = 52 - e := by omega
    have hpos := Nat.two_pow_pos (52 - e)
    rw [if_pos (by omega), habs, hscale, Nat.mul_div_cancel _ hpos, Nat.mul_mod_left]
    simp
  · have hscale : d.mantissa * 2 ^ (e - 52) = k := by
      refine Nat.eq_of_mul_eq_mul_right (Nat.two_pow_pos 52) ?_
      rw [← hvalue, Nat.mul_assoc, ← Nat.pow_add, Nat.sub_add_cancel (by omega)]
    have htoNat : ((e : Int) - 52).toNat = e - 52 := by omega
    rw [if_neg (by omega), htoNat, hscale]
    simp
    omega

theorem natAbs_apply (s : Sign) (n : Nat) : (s.apply n).natAbs = n := by
  cases s <;> simp [Sign.apply]

theorem truncate_eq_apply (s : Sign) (m : Nat) (e : Int) :
    (Dyadic.mk (isNegative s) m e).truncate =
      s.apply (Dyadic.mk (isNegative s) m e).magnitude := by
  cases s <;> rfl

/-- A double that stands for an integer is that integer. -/
theorem shape_of_stands (h : Stands x.toModel.unpack (n * 2 ^ 52)) :
    ∃ d : Dyadic, shape x = .finite d ∧ d.isIntegral = true ∧ d.truncate = n := by
  rw [shape_eq]
  generalize x.toModel.unpack = u at h ⊢
  generalize hv : n * 2 ^ 52 = v at h
  cases h with
  | zero s =>
    have hzero : n = 0 := by omega
    subst hzero
    cases s <;> exact ⟨_, rfl, by decide +kernel, by decide +kernel⟩
  | normal s m e hm hlow hhigh hrange =>
    have hscaled : m * 2 ^ e = n.natAbs * 2 ^ 52 := by
      rw [← natAbs_apply s (m * 2 ^ e), ← hv, Int.natAbs_mul]
      rfl
    obtain ⟨hintegral, hmagnitude⟩ := magnitude_of_scaled (d := ⟨isNegative s, m, e - 52⟩) rfl hscaled
    refine ⟨_, rfl, hintegral, ?_⟩
    rw [truncate_eq_apply, hmagnitude]
    rw [hscaled] at hv
    cases s <;> simp only [Sign.apply] at hv ⊢ <;> omega

theorem isIntegral_of_stands (h : Stands x.toModel.unpack (n * 2 ^ 52)) : isIntegral x = true := by
  obtain ⟨d, hshape, hintegral, -⟩ := shape_of_stands h
  rw [isIntegral, hshape]
  exact hintegral

theorem toInt64Clamped_of_stands (h : Stands x.toModel.unpack (n * 2 ^ 52)) :
    toInt64Clamped x = clampInt64 n := by
  obtain ⟨d, hshape, -, htruncate⟩ := shape_of_stands h
  rw [toInt64Clamped, hshape]
  exact congrArg clampInt64 htruncate

theorem isIntegral_of_infinity {s : Sign} (h : x.toModel.unpack = .infinity s) :
    isIntegral x = false := by
  rw [isIntegral, shape_eq, h]
  rfl

/-! ## Integral doubles -/

/-- A finite double has a significand of 53 bits, or a shorter one with the least exponent. -/
theorem range_of_unpack {s : Sign} {m : Nat} {e : Int} {hm : 0 < m}
    (h : x.toModel.unpack = .finite s m e hm) :
    m < 2 ^ 53 ∧ e < 972 ∧ (2 ^ 52 ≤ m ∨ e = -1074) := by
  have hshape := shape_eq x
  rw [h, shapeOf, shape, shapeOfBits] at hshape
  simp only [Nat.pow_eq] at hshape
  split at hshape
  · split at hshape <;> cases hshape
  · split at hshape
    · simp only [FloatShape.finite.injEq, Dyadic.mk.injEq] at hshape
      omega
    · simp only [FloatShape.finite.injEq, Dyadic.mk.injEq] at hshape
      omega

/-- A double without a fraction stands for an integer. -/
theorem exists_stands_of_isIntegral (h : isIntegral x = true) :
    ∃ n : Int, Stands x.toModel.unpack (n * 2 ^ 52) := by
  rw [isIntegral, shape_eq] at h
  cases hu : x.toModel.unpack with
  | notANumber =>
    rw [hu] at h
    cases h
  | infinity s =>
    rw [hu] at h
    cases h
  | zero s => exact ⟨0, .zero s⟩
  | finite s m e hm =>
    rw [hu] at h
    obtain ⟨hhigh, hrange, hlow⟩ := range_of_unpack hu
    have hwhole : 0 ≤ e ∨ m % 2 ^ e.natAbs = 0 := by
      simpa [shapeOf, Dyadic.isIntegral] using h
    -- below that exponent the number is less than one
    have hexponent : -52 ≤ e := by
      by_contra hsmall
      have hpow : 2 ^ 53 ≤ 2 ^ e.natAbs := Nat.pow_le_pow_right (by decide) (by omega)
      have hrest := hwhole.resolve_left (by omega)
      rw [Nat.mod_eq_of_lt (by omega)] at hrest
      omega
    obtain ⟨d, rfl⟩ : ∃ d : Nat, e = d - 52 := ⟨(e + 52).toNat, by omega⟩
    obtain ⟨k, hk⟩ : ∃ k : Nat, m * 2 ^ d = k * 2 ^ 52 := by
      by_cases hlarge : 52 ≤ d
      · refine ⟨m * 2 ^ (d - 52), ?_⟩
        rw [Nat.mul_assoc, ← Nat.pow_add, Nat.sub_add_cancel hlarge]
      · have hdvd : 2 ^ (52 - d) ∣ m := by
          have hrest := hwhole.resolve_left (by omega)
          rw [show ((d : Int) - 52).natAbs = 52 - d by omega] at hrest
          exact Nat.dvd_of_mod_eq_zero hrest
        obtain ⟨k, rfl⟩ := hdvd
        refine ⟨k, ?_⟩
        rw [Nat.mul_right_comm, ← Nat.pow_add, Nat.sub_add_cancel (by omega), Nat.mul_comm]
    have hstands := Stands.normal s m d hm (by omega) hhigh (by omega)
    have hscaled : s.apply (m * 2 ^ d : Nat) = s.apply k * 2 ^ 52 := by
      rw [hk]
      cases s <;> simp only [Sign.apply] <;> omega
    exact ⟨s.apply k, hscaled ▸ hstands⟩

/-! ## Equality of a double with itself -/

theorem beq_self_iff (x : Float) : (x == x) = true ↔ shape x ≠ .nan := by
  change x.toModel.unpack.beq x.toModel.unpack = true ↔ _
  rw [shape_eq]
  cases x.toModel.unpack with
  | notANumber => simp [UnpackedFloat.beq, UnpackedFloat.compare, shapeOf]
  | infinity s => cases s <;> simp [UnpackedFloat.beq, UnpackedFloat.compare, shapeOf] <;> rfl
  | zero s => simp [UnpackedFloat.beq, UnpackedFloat.compare, shapeOf]
  | finite s m e hm => simp [beq_finite_iff hm hm, shapeOf]

end RowMapper.Decimal
