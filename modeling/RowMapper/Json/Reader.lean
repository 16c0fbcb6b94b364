import RowMapper.Json.Basic
import RowMapper.Decimal.Reader
import RowMapper.Text.Hex

/-! # Reading JSON text

One value and nothing after it is accepted. Integers of 64 bits, signed or
unsigned, stay integers and every other number becomes a double. A double is
the leading digits that fit 64 bits, scaled by a power of ten; a number too
large for a double is refused, and so is nesting of more than 127 levels. A
repeated key keeps its first place and its last value.
-/

namespace RowMapper.Json

open Decimal

def isJsonBlank (c : Char) : Bool :=
  c = ' ' || c = '\n' || c = '\t' || c = '\r'

def skipBlanks (cs : List Char) : List Char :=
  cs.dropWhile isJsonBlank

/-- Take digits while the number stays below `2 ^ 64`, and leave the rest. -/
def absorb (n : Nat) : List Char → Nat × List Char
  | [] => (n, [])
  | c :: cs =>
    let next := n * 10 + digitValue c
    if next < Nat.pow 2 64 then absorb next cs else (n, c :: cs)

def tenTo (n : Nat) : Float := Float.ofScientific 1 false n

/-- Divide by a power of ten, in steps of `10 ^ 308`. -/
def divideByTenTo (x : Float) (n : Nat) : Float :=
  if n ≤ 308 then x / tenTo n
  else if x == 0 then x
  else divideByTenTo (x / tenTo 308) (n - 308)
termination_by n

/-- Scale by a power of ten; a result beyond the doubles is refused. -/
def scaleByTenTo (significand : Nat) (e : Int) : Option Float :=
  let x := Float.ofNat significand
  if e < 0 then some (divideByTenTo x e.natAbs)
  else if e ≤ 308 then
    let y := x * tenTo e.toNat
    if isFinite y then some y else none
  else if significand = 0 then some x else none

/-- The parts of a number as they are written. -/
structure NumberText where
  negative : Bool
  whole : List Char
  places : Option (List Char)
  exponent : Option (Bool × List Char)

def NumberText.value (t : NumberText) : Option Json :=
  let signed := fun x : Float => Json.float (if t.negative then x.neg else x)
  let (head, dropped) := absorb 0 t.whole
  match t.places, t.exponent, dropped with
  | none, none, [] =>
    if !t.negative then some (.int head)
    else if head = 0 || Nat.pow 2 63 < head then some (signed (Float.ofNat head))
    else some (.int (-(head : Int)))
  | places, exponent, dropped =>
    let places := places.getD []
    let (significand, extra) := absorb head places
    let start := (dropped.length : Int) - (places.length - extra.length : Nat)
    match exponent with
    | none => (scaleByTenTo significand start).map signed
    | some (down, ds) =>
      let e := foldDigits 0 ds
      if 2147483647 < e then
        if significand ≠ 0 && !down then none else some (signed 0)
      else (scaleByTenTo significand (if down then start - e else start + e)).map signed

def digitRun (cs : List Char) : Option (List Char × List Char) :=
  let ds := cs.takeWhile Char.isDigit
  if ds.isEmpty then none else some (ds, cs.dropWhile Char.isDigit)

/-- Cut the fraction of a number off the front, if there is one. -/
def cutPlaces : List Char → Option (Option (List Char) × List Char)
  | '.' :: cs => (digitRun cs).map fun (ds, rest) => (some ds, rest)
  | cs => some (none, cs)

def cutExponent : List Char → Option (Option (Bool × List Char) × List Char)
  | c :: cs =>
    if c = 'e' || c = 'E' then
      let (down, body) := match cs with
        | '-' :: rest => (true, rest)
        | '+' :: rest => (false, rest)
        | rest => (false, rest)
      (digitRun body).map fun (ds, rest) => (some (down, ds), rest)
    else some (none, c :: cs)
  | [] => some (none, [])

def readNumber (cs : List Char) : Option (Json × List Char) := do
  let (negative, body) := match cs with
    | '-' :: rest => (true, rest)
    | rest => (false, rest)
  let (whole, rest) ← digitRun body
  if 1 < whole.length && whole.head? = some '0' then none
  let (places, rest) ← cutPlaces rest
  let (exponent, rest) ← cutExponent rest
  let value ← NumberText.value ⟨negative, whole, places, exponent⟩
  some (value, rest)

def hexUnit (a b c d : Char) : Option Nat := Text.hexNumber [a, b, c, d]

/-- Read the inside of a string up to its closing quote; surrogate units come in pairs only. -/
def readString : List Char → Option (List Char × List Char)
  | [] => none
  | '"' :: cs => some ([], cs)
  | '\\' :: 'u' :: a :: b :: c :: d :: cs => do
    let unit ← hexUnit a b c d
    if 0xDC00 ≤ unit && unit ≤ 0xDFFF then none
    else if 0xD800 ≤ unit && unit ≤ 0xDBFF then
      match cs with
      | '\\' :: 'u' :: a :: b :: c :: d :: cs => do
        let low ← hexUnit a b c d
        if low < 0xDC00 || 0xDFFF < low then none
        let (s, rest) ← readString cs
        some (Char.ofNat (0x10000 + (unit - 0xD800) * 0x400 + (low - 0xDC00)) :: s, rest)
      | _ => none
    else do
      let (s, rest) ← readString cs
      some (Char.ofNat unit :: s, rest)
  | '\\' :: c :: cs => do
    let plain ← match c with
      | '"' => some '"'
      | '\\' => some '\\'
      | '/' => some '/'
      | 'b' => some '\x08'
      | 'f' => some '\x0c'
      | 'n' => some '\n'
      | 'r' => some '\r'
      | 't' => some '\t'
      | _ => none
    let (s, rest) ← readString cs
    some (plain :: s, rest)
  | c :: cs =>
    if c.toNat < 0x20 || c = '\\' then none
    else do
      let (s, rest) ← readString cs
      some (c :: s, rest)

mutual
/-- Read a value at the front; `depth` levels may still be opened. -/
def readValue : Nat → Nat → List Char → Option (Json × List Char)
  | 0, _, _ => none
  | fuel + 1, depth, cs =>
    match skipBlanks cs with
    | 'n' :: 'u' :: 'l' :: 'l' :: rest => some (.null, rest)
    | 't' :: 'r' :: 'u' :: 'e' :: rest => some (.bool true, rest)
    | 'f' :: 'a' :: 'l' :: 's' :: 'e' :: rest => some (.bool false, rest)
    | '"' :: rest => (readString rest).map fun (s, rest) => (.str (String.ofList s), rest)
    | '[' :: rest =>
      if depth = 0 then none
      else match skipBlanks rest with
        | ']' :: rest => some (.arr [], rest)
        | rest => (readItems fuel (depth - 1) rest).map fun (items, rest) => (.arr items, rest)
    | '\x7b' :: rest =>
      if depth = 0 then none
      else match skipBlanks rest with
        | '\x7d' :: rest => some (.obj [], rest)
        | rest => (readMembers fuel (depth - 1) [] rest).map fun (ms, rest) => (.obj ms, rest)
    | rest => readNumber rest
def readItems : Nat → Nat → List Char → Option (List Json × List Char)
  | 0, _, _ => none
  | fuel + 1, depth, cs => do
    let (v, rest) ← readValue fuel depth cs
    match skipBlanks rest with
    | ',' :: rest => (readItems fuel depth rest).map fun (vs, rest) => (v :: vs, rest)
    | ']' :: rest => some ([v], rest)
    | _ => none
/-- Read the members of an object, after those already read, and its closing brace. -/
def readMembers : Nat → Nat → List (String × Json) → List Char →
    Option (List (String × Json) × List Char)
  | 0, _, _, _ => none
  | fuel + 1, depth, seen, cs => do
    let (key, rest) ← match skipBlanks cs with
      | '"' :: rest => readString rest
      | _ => none
    let rest ← match skipBlanks rest with
      | ':' :: rest => some rest
      | _ => none
    let (v, rest) ← readValue fuel depth rest
    let seen := Entries.put seen (String.ofList key) v
    match skipBlanks rest with
    | ',' :: rest => readMembers fuel depth seen rest
    | '\x7d' :: rest => some (seen, rest)
    | _ => none
end

def parse (s : String) : Option Json :=
  let cs := s.toList
  match readValue (2 * cs.length + 2) 127 cs with
  | some (v, rest) => if (skipBlanks rest).isEmpty then some v else none
  | none => none

end RowMapper.Json
