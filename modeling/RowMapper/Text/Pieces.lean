import RowMapper.Text.Blank

/-! # Cutting text into pieces

Splitting at a character, at a phrase and at a byte offset, and joining. Each
function is by recursion on the character list, so what it keeps and what it
drops can be read off its equations.
-/

namespace RowMapper.Text

/-- The pieces between the separators; there is always one piece more than there are separators. -/
def splitChars (sep : Char) : List Char → List (List Char)
  | [] => [[]]
  | c :: cs =>
    if c = sep then [] :: splitChars sep cs
    else match splitChars sep cs with
      | [] => [[c]]
      | piece :: rest => (c :: piece) :: rest

def split (sep : Char) (s : String) : List String :=
  (splitChars sep s.toList).map String.ofList

def breakPhrase (phrase : List Char) : List Char → Option (List Char × List Char)
  | [] => if phrase = [] then some ([], []) else none
  | c :: cs =>
    if phrase.isPrefixOf (c :: cs) then some ([], (c :: cs).drop phrase.length)
    else (breakPhrase phrase cs).map fun (before, after) => (c :: before, after)

def containsPhrase (phrase s : String) : Bool :=
  (breakPhrase phrase.toList s.toList).isSome

/-- The length of a character list in UTF-8 bytes. -/
def byteLength : List Char → Nat
  | [] => 0
  | c :: cs => c.utf8Size + byteLength cs

/-- Cut at a byte offset; there is no cut inside a character or past the end. -/
def cutAtByte : Nat → List Char → Option (List Char × List Char)
  | 0, cs => some ([], cs)
  | _ + 1, [] => none
  | n + 1, c :: cs =>
    if c.utf8Size ≤ n + 1 then
      (cutAtByte (n + 1 - c.utf8Size) cs).map fun (before, after) => (c :: before, after)
    else none

def join (sep : String) : List String → String
  | [] => ""
  | [s] => s
  | s :: t :: rest => s ++ sep ++ join sep (t :: rest)

/-- The part after the last separator, or the whole text when there is none. -/
def lastPiece (sep : Char) (s : String) : String :=
  (split sep s).getLast?.getD s

theorem splitChars_ne_nil (sep : Char) (cs : List Char) : splitChars sep cs ≠ [] := by
  cases cs with
  | nil => simp [splitChars]
  | cons c cs =>
    rw [splitChars]
    split
    · simp
    · split <;> simp

theorem breakPhrase_eq_some {phrase cs before after : List Char}
    (h : breakPhrase phrase cs = some (before, after)) : cs = before ++ phrase ++ after := by
  induction cs generalizing before after with
  | nil =>
    simp only [breakPhrase] at h
    split at h
    · next hp => simp_all
    · simp at h
  | cons c cs ih =>
    simp only [breakPhrase] at h
    split at h
    · next hp =>
      simp only [Option.some.injEq, Prod.mk.injEq] at h
      obtain ⟨rfl, rfl⟩ := h
      obtain ⟨t, ht⟩ := List.isPrefixOf_iff_prefix.1 hp
      simp [← ht]
    · simp only [Option.map_eq_some_iff, Prod.mk.injEq, Prod.exists] at h
      obtain ⟨b, a, hb, rfl, rfl⟩ := h
      simp [ih hb]

theorem cutAtByte_eq_some {n : Nat} {cs before after : List Char}
    (h : cutAtByte n cs = some (before, after)) :
    cs = before ++ after ∧ byteLength before = n := by
  induction cs generalizing n before after with
  | nil =>
    cases n with
    | zero => simp_all [cutAtByte, byteLength]
    | succ n => simp [cutAtByte] at h
  | cons c cs ih =>
    cases n with
    | zero => simp_all [cutAtByte, byteLength]
    | succ n =>
      simp only [cutAtByte] at h
      split at h
      · next hc =>
        simp only [Option.map_eq_some_iff, Prod.mk.injEq, Prod.exists] at h
        obtain ⟨b, a, hb, rfl, rfl⟩ := h
        obtain ⟨rfl, hl⟩ := ih hb
        refine ⟨rfl, ?_⟩
        simp only [byteLength] at hl ⊢
        simp [hl]
        omega
      · simp at h

end RowMapper.Text
