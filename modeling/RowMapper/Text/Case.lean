import RowMapper.Text.CaseTable

/-! # Full letter case

Lower-casing and upper-casing of text by the Unicode rules, expansions such as
`ß` to `SS` included. A capital sigma becomes a final sigma at the end of a
word, which is the one rule that looks at the surroundings.
-/

namespace RowMapper.Text

open CaseTable

/-- Where a run of the case tables sends a code point. -/
def shiftIn (runs : List (Nat × Nat × Nat × Int)) (n : Nat) : Option Nat :=
  (runs.find? fun (first, last, step, _) =>
    first ≤ n && n ≤ last && (n - first) % step == 0).map fun (_, _, _, shift) =>
      (Int.ofNat n + shift).toNat

def inRanges (ranges : List (Nat × Nat)) (n : Nat) : Bool :=
  ranges.any fun (first, last) => first ≤ n && n ≤ last

/-- The lower-case form of a character, apart from the rule for sigma. -/
def lowerChar (c : Char) : List Char :=
  if c.toNat < 128 then [c.toLower]
  else if c.toNat = 0x130 then ['i', Char.ofNat 0x307]
  else match shiftIn lowerRuns c.toNat with
    | some n => [Char.ofNat n]
    | none => [c]

def upperChar (c : Char) : List Char :=
  if c.toNat < 128 then [c.toUpper]
  else match upperExpansions.lookup c.toNat with
    | some ns => ns.map Char.ofNat
    | none => match shiftIn upperRuns c.toNat with
      | some n => [Char.ofNat n]
      | none => [c]

/-- Whether a character is passed over when the surroundings of a sigma are examined. -/
def isCaseIgnorable (c : Char) : Bool :=
  if c.toNat < 128 then c.toNat ∈ [0x27, 0x2E, 0x3A, 0x5E, 0x60]
  else inRanges ignorableRanges c.toNat

def isCased (c : Char) : Bool :=
  if c.toNat < 128 then c.isAlpha else inRanges casedRanges c.toNat

def nextIsCased (cs : List Char) : Bool :=
  match cs.dropWhile isCaseIgnorable with
  | [] => false
  | c :: _ => isCased c

/-- Lower-case a character list; the first argument is what precedes it, last character first. -/
def lowerChars : List Char → List Char → List Char
  | _, [] => []
  | before, c :: cs =>
    (if c.toNat = 0x3A3 then
      [Char.ofNat (if nextIsCased before && !nextIsCased cs then 0x3C2 else 0x3C3)]
    else lowerChar c) ++ lowerChars (c :: before) cs

def lower (s : String) : String :=
  String.ofList (lowerChars [] s.toList)

def upper (s : String) : String :=
  String.ofList (s.toList.flatMap upperChar)

def isCapital (c : Char) : Bool :=
  if c.toNat < 128 then c.isUpper
  else inRanges bareCapitalRanges c.toNat ||
    (lowerChar c != [c] && !inRanges titleCaseRanges c.toNat)

/-- The lower-case form that changes ASCII letters only. -/
def lowerAscii (s : String) : String :=
  String.ofList (s.toList.map Char.toLower)

def sameIgnoringAsciiCase (s t : String) : Bool :=
  lowerAscii s == lowerAscii t

end RowMapper.Text
