/-! # Binary floating-point numbers as exact fractions

A finite number is a sign, a mantissa and a power of two, read off its bits.
Questions about integrality and range are answered on these, in exact integer
arithmetic.
-/

namespace RowMapper.Decimal

/-- The number `± mantissa · 2 ^ exponent`. -/
structure Dyadic where
  negative : Bool
  mantissa : Nat
  exponent : Int
  deriving DecidableEq, Repr

inductive FloatShape where
  | nan
  | infinite (negative : Bool)
  | finite (value : Dyadic)
  deriving DecidableEq, Repr

def shapeOfBits (bits : Nat) : FloatShape :=
  let negative := bits / Nat.pow 2 63 == 1
  let biased : Nat := bits / Nat.pow 2 52 % Nat.pow 2 11
  let fraction : Nat := bits % Nat.pow 2 52
  if biased = 2047 then if fraction = 0 then .infinite negative else .nan
  else if biased = 0 then .finite ⟨negative, fraction, -1074⟩
  else .finite ⟨negative, fraction + Nat.pow 2 52, (biased : Int) - 1075⟩

def shape (x : Float) : FloatShape :=
  shapeOfBits x.toBits.toNat

/-- The magnitude rounded toward zero. -/
def Dyadic.magnitude (d : Dyadic) : Nat :=
  if d.exponent < 0 then d.mantissa / Nat.pow 2 d.exponent.natAbs
  else d.mantissa * Nat.pow 2 d.exponent.toNat

def Dyadic.isIntegral (d : Dyadic) : Bool :=
  0 ≤ d.exponent || d.mantissa % Nat.pow 2 d.exponent.natAbs == 0

def Dyadic.truncate (d : Dyadic) : Int :=
  if d.negative then -(d.magnitude : Int) else d.magnitude

def int64Min : Int := -9223372036854775808

def int64Max : Int := 9223372036854775807

def fitsInt64 (n : Int) : Bool :=
  int64Min ≤ n && n ≤ int64Max

/-- The nearest integer of 64 bits. -/
def clampInt64 (n : Int) : Int :=
  max int64Min (min int64Max n)

/-- Round toward zero into 64 bits; out of range goes to the nearer end and NaN to zero. -/
def toInt64Clamped (x : Float) : Int :=
  match shape x with
  | .nan => 0
  | .infinite negative => if negative then int64Min else int64Max
  | .finite d => clampInt64 d.truncate

/-- Whether a floating-point number is finite and has no fraction. -/
def isIntegral (x : Float) : Bool :=
  match shape x with
  | .finite d => d.isIntegral
  | _ => false

def isFinite (x : Float) : Bool :=
  match shape x with
  | .finite _ => true
  | _ => false

theorem fitsInt64_iff {n : Int} : fitsInt64 n ↔ int64Min ≤ n ∧ n ≤ int64Max := by
  simp only [fitsInt64, Bool.and_eq_true, decide_eq_true_eq]

theorem fitsInt64_toInt (n : Int64) : fitsInt64 n.toInt := by
  rw [fitsInt64_iff]
  exact ⟨n.le_toInt, Int.le_sub_one_of_lt n.toInt_lt⟩

theorem clampInt64_fits (n : Int) : fitsInt64 (clampInt64 n) := by
  rw [fitsInt64_iff]
  simp only [clampInt64, int64Min, int64Max]
  omega

theorem clampInt64_eq {n : Int} (h : fitsInt64 n) : clampInt64 n = n := by
  rw [fitsInt64_iff] at h
  simp only [clampInt64, int64Min, int64Max] at *
  omega

theorem toInt64Clamped_fits (x : Float) : fitsInt64 (toInt64Clamped x) := by
  unfold toInt64Clamped
  split
  · decide
  · split <;> decide
  · exact clampInt64_fits _

end RowMapper.Decimal
