import RowMapper.Text.Word

/-! # Patterns without repetition

Patterns of characters, choices and captured parts, up to letter case. There is
no repetition, so a pattern has finitely many matches at a place; they are
listed in order of preference, the first choice before the second and a longer
option before none.
-/

namespace RowMapper.Text

inductive Pattern where
  /-- One character, up to case. -/
  | char (c : Char)
  /-- One of the characters, up to case. -/
  | oneOf (cs : List Char)
  /-- One character that is none of these, up to case. -/
  | noneOf (cs : List Char)
  /-- One character that is no word character. -/
  | nonWord
  /-- The place between a word character and none. -/
  | boundary
  /-- The start of the text. -/
  | start
  | seq (ps : List Pattern)
  | alt (ps : List Pattern)
  | option (p : Pattern)
  | capture (p : Pattern)

/-- A place in a text: the character before it, the text after it, and what was captured so far. -/
structure Place where
  before : Option Char
  rest : List Char
  captured : List (List Char) := []

/-- Whether an input character is a lower-case pattern character up to case. -/
def sameUpToCase (p c : Char) : Bool :=
  c == p || [c] == upperChar p || (p == 's' && c.toNat == 0x17F) || (p == 'k' && c.toNat == 0x212A)

def Place.step (test : Char → Bool) (x : Place) : List Place :=
  match x.rest with
  | c :: cs => if test c then [{ x with before := some c, rest := cs }] else []
  | [] => []

def Place.isBoundary (x : Place) : Bool :=
  (x.before.map isWordChar).getD false != (x.rest.head?.map isWordChar).getD false

mutual
/-- The places where matches of a pattern end, in order of preference. -/
def Pattern.ends : Pattern → Place → List Place
  | .char p, x => x.step (sameUpToCase p)
  | .oneOf ps, x => x.step fun c => ps.any (sameUpToCase · c)
  | .noneOf ps, x => x.step fun c => !ps.any (sameUpToCase · c)
  | .nonWord, x => x.step fun c => !isWordChar c
  | .boundary, x => if x.isBoundary then [x] else []
  | .start, x => if x.before.isNone then [x] else []
  | .seq ps, x => seqEnds ps x
  | .alt ps, x => altEnds ps x
  | .option p, x => p.ends x ++ [x]
  | .capture p, x => (p.ends x).map fun y =>
      { y with captured := y.captured ++ [x.rest.take (x.rest.length - y.rest.length)] }
def seqEnds : List Pattern → Place → List Place
  | [], x => [x]
  | p :: ps, x => (p.ends x).flatMap fun y => seqEnds ps y
def altEnds : List Pattern → Place → List Place
  | [], _ => []
  | p :: ps, x => p.ends x ++ altEnds ps x
end

def Pattern.text (s : String) : Pattern := .seq (s.toList.map .char)

def Pattern.texts (ss : List String) : Pattern := .alt (ss.map .text)

structure EndMatch where
  before : List Char
  whole : List Char
  captured : List (List Char)

/-- The first match that reaches the end of the text: what precedes it, the match and its captures. -/
def Pattern.findAtEnd (p : Pattern) : List Char → List Char → Option EndMatch
  | before, cs =>
    match (p.ends { before := before.head?, rest := cs }).find? fun y => y.rest.isEmpty with
    | some y => some ⟨before.reverse, cs, y.captured⟩
    | none => match cs with
      | [] => none
      | c :: cs => p.findAtEnd (c :: before) cs

end RowMapper.Text
