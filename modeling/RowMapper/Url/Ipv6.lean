import RowMapper.Url.Percent

/-! # IPv6 addresses

An address is eight groups of sixteen bits. It is written with its first longest
run of two or more zero groups left out.
-/

namespace RowMapper.Url

abbrev Ipv6 := List Nat

def readGroup (cs : List Char) : Option Nat :=
  if cs.isEmpty || 4 < cs.length then none
  else Text.hexNumber cs

/-- Read a number up to 255 without leading zeros. -/
def readOctet (cs : List Char) : Option Nat :=
  if cs.isEmpty || 3 < cs.length || !cs.all Char.isDigit then none
  else if 1 < cs.length && cs.head? = some '0' then none
  else
    let n := cs.foldl (fun n c => n * 10 + (c.toNat - 48)) 0
    if n ≤ 255 then some n else none

def readDotted (cs : List Char) : Option (List Nat) :=
  match (Text.splitChars '.' cs).mapM readOctet with
  | some [a, b, c, d] => some [a * 256 + b, c * 256 + d]
  | _ => none

/-- Read groups between colons; the last piece may be dotted. -/
def readGroups (dotted : Bool) (cs : List Char) : Option (List Nat) :=
  if cs.isEmpty then some []
  else
    let pieces := Text.splitChars ':' cs
    let last := pieces.getLast?.getD []
    if dotted && last.contains '.' then do
      let front ← pieces.dropLast.mapM readGroup
      let back ← readDotted last
      some (front ++ back)
    else pieces.mapM readGroup

def readIpv6 (cs : List Char) : Option Ipv6 :=
  match Text.breakPhrase [':', ':'] cs with
  | none => (readGroups true cs).filter fun groups => groups.length == 8
  | some (front, back) => do
    let front ← readGroups false front
    let back ← readGroups true back
    let count := front.length + back.length
    if 7 < count then none
    some (front ++ List.replicate (8 - count) 0 ++ back)

def zeroRun (groups : List Nat) : Nat := (groups.takeWhile (· == 0)).length

/-- The start and length of the first longest run of zero groups. -/
def longestZeroRun : Nat → List Nat → Nat × Nat
  | _, [] => (0, 0)
  | at', g :: gs =>
    let here := zeroRun (g :: gs)
    let (start, length) := longestZeroRun (at' + 1) gs
    if length ≤ here then (at', here) else (start, length)

def groupsText (groups : List Nat) : List Char :=
  (":".intercalate (groups.map fun g => String.ofList (Nat.toDigits 16 g))).toList

def ipv6Text (groups : Ipv6) : List Char :=
  let (start, length) := longestZeroRun 0 groups
  if length < 2 then groupsText groups
  else groupsText (groups.take start) ++ "::".toList ++ groupsText (groups.drop (start + length))

end RowMapper.Url
