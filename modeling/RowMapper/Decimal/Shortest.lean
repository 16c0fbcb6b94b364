import RowMapper.Decimal.Binary

/-! # The fewest decimal digits that read back

A finite double owns the interval of reals that round to it. Among the decimals
with the fewest digits in that interval the nearest to the number is chosen. The
search is on grids of one to seventeen digits and in exact arithmetic on natural
numbers. How the digits are laid out is left to the caller.
-/

namespace RowMapper.Decimal

/-- The decimal `digits · 10 ^ exponent`. -/
structure Digits where
  digits : Nat
  exponent : Int
  deriving DecidableEq, Repr

/-- A number and the ends of its rounding interval, over one common denominator. -/
structure Interval where
  low : Nat
  mid : Nat
  high : Nat
  scale : Nat
  closed : Bool
  deriving Repr

/-- The rounding interval of a positive double `m · 2 ^ q`; below a power of two the gap is halved. -/
def intervalOf (m : Nat) (q : Int) : Interval :=
  let narrow := m == Nat.pow 2 52 && q != -1074
  let up := if q < 0 then 1 else Nat.pow 2 q.toNat
  { low := (4 * m - if narrow then 1 else 2) * up
    mid := 4 * m * up
    high := (4 * m + 2) * up
    scale := if q < 0 then 4 * Nat.pow 2 q.natAbs else 4
    closed := m % 2 == 0 }

def Interval.holds (i : Interval) (d : Nat) (e : Int) : Bool :=
  let value := if e < 0 then d * i.scale else d * Nat.pow 10 e.toNat * i.scale
  let unit := if e < 0 then Nat.pow 10 e.natAbs else 1
  if i.closed then i.low * unit ≤ value && value ≤ i.high * unit
  else i.low * unit < value && value < i.high * unit

/-- The neighbours of the midpoint on the grid of multiples of `10 ^ e`, and how near the lower is. -/
def Interval.neighbour (i : Interval) (e : Int) : Nat × Ordering :=
  let num := if e < 0 then i.mid * Nat.pow 10 e.natAbs else i.mid
  let den := if e < 0 then i.scale else i.scale * Nat.pow 10 e.toNat
  (num / den, compare (2 * (num % den)) den)

/-- The chosen point of a grid, if the grid has one in the interval. -/
def Interval.pick (i : Interval) (e : Int) : Option Nat :=
  let (below, side) := i.neighbour e
  let lower := below != 0 && i.holds below e
  let upper := i.holds (below + 1) e
  match lower, upper with
  | true, true => match side with
    | .gt => some (below + 1)
    | .lt => some below
    | .eq => some (if below % 2 == 0 then below else below + 1)
  | true, false => some below
  | false, true => some (below + 1)
  | false, false => none

/-- Try the grids from the coarsest, at `10 ^ e`, down. -/
def Interval.search (i : Interval) (e : Int) : Nat → Digits
  | 0 => ⟨i.mid / i.scale, 0⟩
  | fuel + 1 => match i.pick e with
    | some d => ⟨d, e⟩
    | none => i.search (e - 1) fuel

def leadingExponent (num den : Nat) : Int :=
  if den ≤ num then ((toString (num / den)).length : Int) - 1
  else -((toString ((den - 1) / num)).length : Int)

/-- Move trailing zeros of the digits into the exponent. -/
def Digits.stripZeros (d : Digits) : Nat → Digits
  | 0 => d
  | fuel + 1 =>
    if d.digits != 0 && d.digits % 10 == 0 then
      (Digits.mk (d.digits / 10) (d.exponent + 1)).stripZeros fuel
    else d

/-- The shortest digits of a positive double `m · 2 ^ q`. -/
def shortest (m : Nat) (q : Int) : Digits :=
  let i := intervalOf m q
  (i.search (leadingExponent i.mid i.scale) 18).stripZeros 20

def digitText (n : Nat) : String := toString n

def zeros (n : Nat) : String := String.ofList (List.replicate n '0')

/-- The number without exponent, and with as many zeros as that takes. -/
def Digits.positional (d : Digits) : String :=
  let text := digitText d.digits
  if 0 ≤ d.exponent then text ++ zeros d.exponent.toNat
  else
    let places := d.exponent.natAbs
    if text.length ≤ places then "0." ++ zeros (places - text.length) ++ text
    else
      let cs := text.toList
      String.ofList (cs.take (cs.length - places)) ++ "." ++
        String.ofList (cs.drop (cs.length - places))

/-- The plain text of a floating-point number, never with an exponent. -/
def plainText (x : Float) : String :=
  match shape x with
  | .nan => "NaN"
  | .infinite negative => if negative then "-inf" else "inf"
  | .finite d =>
    (if d.negative then "-" else "") ++
      (if d.mantissa = 0 then "0" else (shortest d.mantissa d.exponent).positional)

end RowMapper.Decimal
