import RowMapper.Decimal.Binary

/-! # Reading numbers

The number texts that are accepted where a value is read from text: an optional
sign and digits for integers of 64 bits; fraction, exponent and the words for
infinity and NaN for floating-point numbers. Blanks are not skipped here.
-/

namespace RowMapper.Decimal

def digitValue (c : Char) : Nat := c.toNat - 48

/-- The number a list of digits denotes, continuing an initial number. -/
def foldDigits (start : Nat) (cs : List Char) : Nat :=
  cs.foldl (fun n c => n * 10 + digitValue c) start

def readNat (cs : List Char) : Option Nat :=
  if !cs.isEmpty && cs.all Char.isDigit then some (foldDigits 0 cs) else none

def readInt : List Char → Option Int
  | '-' :: cs => (readNat cs).map fun n => -(n : Int)
  | '+' :: cs => (readNat cs).map Int.ofNat
  | cs => (readNat cs).map Int.ofNat

def readInt64 (cs : List Char) : Option Int :=
  (readInt cs).filter fitsInt64

/-- The double nearest to `m · 10 ^ e`; `count` bounds the digits of `m`. -/
def nearestDouble (m count : Nat) (e : Int) : Float :=
  if m = 0 || e + count < -400 then Float.ofScientific 0 false 0
  else if 400 < e then Float.ofBits 0x7FF0000000000000
  else if 0 ≤ e then Float.ofScientific m false e.toNat
  else Float.ofScientific m true e.natAbs

/-- Read digits with at most one point among them, as a number and its count of places. -/
def readPlaces (cs : List Char) : Option (List Char × Nat) :=
  let whole := cs.takeWhile Char.isDigit
  match cs.dropWhile Char.isDigit with
  | [] => if whole.isEmpty then none else some (whole, 0)
  | '.' :: places =>
    if places.all Char.isDigit && !(whole.isEmpty && places.isEmpty) then
      some (whole ++ places, places.length)
    else none
  | _ => none

def splitExponent (cs : List Char) : List Char × Option (List Char) :=
  let mark := fun c => c == 'e' || c == 'E'
  match cs.dropWhile fun c => !mark c with
  | [] => (cs, none)
  | _ :: e => (cs.takeWhile fun c => !mark c, some e)

def readMagnitude (cs : List Char) : Option Float :=
  match String.ofList (cs.map Char.toLower) with
  | "inf" => some (Float.ofBits 0x7FF0000000000000)
  | "infinity" => some (Float.ofBits 0x7FF0000000000000)
  | "nan" => some (Float.ofBits 0x7FF8000000000000)
  | _ =>
    let (body, tail) := splitExponent cs
    match readPlaces body, tail with
    | some (ds, places), none => some (nearestDouble (foldDigits 0 ds) ds.length (-(places : Int)))
    | some (ds, places), some e => (readInt e).map fun e =>
        nearestDouble (foldDigits 0 ds) ds.length (e - places)
    | none, _ => none

def readFloat : List Char → Option Float
  | '-' :: cs => (readMagnitude cs).map Float.neg
  | '+' :: cs => readMagnitude cs
  | cs => readMagnitude cs

end RowMapper.Decimal
