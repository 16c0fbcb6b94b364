import RowMapper.Proofs.Alias.Occurrence
import RowMapper.Proofs.Quoting.Reader
import RowMapper.Proofs.Statement.BareNames

/-! # Written names read back

A name is written as one token of the dialect, which says the name again: bare, as the star, or
between quotes. A qualified name is written as one token for each of its segments, with dots
between them. No scan of a statement finds anything in such a text or stops inside it.
-/

namespace RowMapper.Sql

open Text

/-- Read a name at the front of a text: what the quotes of the dialect hold, the star, or a bare
name as far as it goes, unless that is a reserved word. -/
def readName (d : Dialect) : List Char → Option (List Char × List Char)
  | [] => none
  | c :: cs =>
    if c = d.identifierQuote then readQuoted false c cs
    else if c = '*' then some (['*'], cs)
    else if isPlainIdentifier (String.ofList ((c :: cs).takeWhile isNameChar)) then
      some ((c :: cs).takeWhile isNameChar, (c :: cs).dropWhile isNameChar)
    else none

def Stops (d : Dialect) (rest : List Char) : Prop :=
  ∀ c ∈ rest.head?, isNameChar c = false ∧ c ≠ d.identifierQuote

instance (d : Dialect) (rest : List Char) : Decidable (Stops d rest) :=
  Option.decidableForallMem rest.head?

variable {d : Dialect} {name : String} {rest : List Char}

theorem Stops.head?_ne (h : Stops d rest) : rest.head? ≠ some d.identifierQuote :=
  fun hquote => (h _ hquote).2 rfl

theorem stops_dot (d : Dialect) (rest : List Char) : Stops d ('.' :: rest) := by
  intro c hc
  obtain rfl : '.' = c := Option.some.inj hc
  cases d <;> decide

theorem span_name {cs : List Char} (hcs : ∀ c ∈ cs, isNameChar c = true) (h : Stops d rest) :
    (cs ++ rest).takeWhile isNameChar = cs ∧ (cs ++ rest).dropWhile isNameChar = rest := by
  rw [List.takeWhile_append_of_pos hcs, List.dropWhile_append_of_pos hcs]
  cases rest with
  | nil => simp
  | cons c rest => simp [(h c rfl).1]

theorem readName_bare (hname : isPlainIdentifier name = true) (h : Stops d rest) :
    readName d (name.toList ++ rest) = some (name.toList, rest) := by
  have hbare : isNameChars name.toList = true := by
    rw [isPlainIdentifier, Bool.and_eq_true] at hname
    exact hname.1
  obtain ⟨htake, hdrop⟩ := span_name (IsBare.isNameChar hbare) h
  cases hcs : name.toList with
  | nil =>
    rw [hcs] at hbare
    cases hbare
  | cons c cs =>
    have hc : isNameChar c = true := IsBare.isNameChar hbare c (by simp [hcs])
    have hquote : c ≠ d.identifierQuote := by
      rintro rfl
      have hq := isQuote_identifierQuote d
      rw [isQuote_of_isNameChar hc] at hq
      cases hq
    have hstar : c ≠ '*' := by
      rintro rfl
      exact absurd hc (by decide)
    rw [hcs, List.cons_append] at htake hdrop
    rw [List.cons_append, readName, if_neg hquote, if_neg hstar, htake, hdrop, ← hcs,
      String.ofList_toList, if_pos hname]

/-- A name is written as one token, which is read as the name. -/
theorem readName_quoteIdentifier (d : Dialect) (name : String) (h : Stops d rest) :
    readName d ((quoteIdentifier d name).toList ++ rest) = some (name.toList, rest) := by
  unfold quoteIdentifier
  split
  · next hname =>
    rcases (Bool.or_eq_true ..).mp hname with hstar | hplain
    · rw [of_decide_eq_true hstar]
      cases d <;> rfl
    · exact readName_bare hplain h
  · rw [String.toList_ofList, quoteChars, List.cons_append, List.cons_append, List.append_assoc,
      List.singleton_append, readName, if_pos rfl]
    exact readQuoted_doubled h.head?_ne _

/-- Without an alias a qualified name is written segment by segment. -/
theorem quoteQualified_of_not_hasAlias (h : ¬HasAlias name.toList) :
    quoteQualified d name = quoteSegments d (trim name) := by
  have hsplit : splitAlias (trim name) = none := by
    refine splitAlias_eq_none fun halias => h (.of_trim ?_)
    rwa [toList_trim] at halias
  rw [quoteQualified]
  cases name.length with
  | zero => rfl
  | succ fuel =>
    unfold quoteQualifiedFrom
    rw [hsplit]

/-- Segments are written as one token each, with dots between them. -/
theorem separated_quoteSegments (d : Dialect) (name : String) (h : Stops d rest)
    (hdot : rest.head? ≠ some '.') :
    Separated (readName d) ['.'] ((quoteSegments d name).toList ++ rest)
      ((split '.' name).map String.toList) rest := by
  refine .of_join "." (Stops d) ?_ ?_ (stops_dot d) h ?_
  · rw [split]
    simpa using splitChars_ne_nil '.' name.toList
  · exact fun segment _ rest h => readName_quoteIdentifier d segment h
  · rintro ⟨after, rfl⟩
    exact hdot rfl

/-- Every name is written as one token that says it, and every qualified name as the tokens of its
segments with dots between them. The scans of a statement pass over both. -/
theorem names_written (d : Dialect) (name : String) :
    (∀ rest, Stops d rest →
      readName d ((quoteIdentifier d name).toList ++ rest) = some (name.toList, rest)) ∧
    (¬HasAlias name.toList → ∀ rest, Stops d rest → rest.head? ≠ some '.' →
      Separated (readName d) ['.'] ((quoteQualified d name).toList ++ rest)
        ((split '.' (trim name)).map String.toList) rest) ∧
    Passes none (quoteIdentifier d name).toList none ∧
    Passes none (quoteQualified d name).toList none := by
  refine ⟨fun rest h => readName_quoteIdentifier d name h, fun halias rest h hdot => ?_,
    .of_seals (seals_quoteIdentifier d name), .of_seals (seals_quoteQualified d name)⟩
  rw [quoteQualified_of_not_hasAlias halias]
  exact separated_quoteSegments d (trim name) h hdot

/-- Quotes, a colon and a reserved word inside names, before the end of a statement. -/
theorem oddNames_written :
    (Stops .mysql " = 1".toList ∧
      readName .mysql ((quoteIdentifier .mysql "a\x60:b").toList ++ " = 1".toList) =
        some ("a\x60:b".toList, " = 1".toList)) ∧
    ¬HasAlias " shop..Order.\"?".toList ∧
      Separated (readName .postgres) ['.']
        ((quoteQualified .postgres " shop..Order.\"?").toList ++ [])
        ((split '.' (trim " shop..Order.\"?")).map String.toList) [] :=
  ⟨⟨by decide +kernel, (names_written .mysql "a\x60:b").1 _ (by decide +kernel)⟩, by decide +kernel,
    (names_written .postgres " shop..Order.\"?").2.1 (by decide +kernel) [] (by decide +kernel)
      (by decide +kernel)⟩

end RowMapper.Sql
