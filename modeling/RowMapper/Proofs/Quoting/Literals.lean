import RowMapper.Proofs.Placeholder.Predicates
import RowMapper.Proofs.Quoting.Reader

/-! # Written texts read back

A text is written as one literal of the dialect, which says the text again. The scans of a
statement know nothing of backslashes. They go through the literal all the same: they are inside
its quotes up to the last character, and outside after it. So a list of texts is read as the texts
in it, and what stands around the list is scanned as if it were not there.
-/

namespace RowMapper.Sql

open Text

/-- Read a literal at the front of a text. In the MySQL dialect a backslash escapes. -/
def readLiteral (d : Dialect) : List Char → Option (List Char × List Char)
  | '\'' :: cs => readQuoted (d = .mysql) '\'' cs
  | _ => none

variable {d : Dialect} {rest : List Char}

theorem readLiteral_textLiteral (d : Dialect) (s : String) (h : rest.head? ≠ some '\'') :
    readLiteral d ((textLiteral d s).toList ++ rest) = some (s.toList, rest) := by
  rw [textLiteral, String.toList_ofList, List.cons_append, List.cons_append, List.append_assoc,
    List.singleton_append, readLiteral]
  cases d with
  | postgres => exact readQuoted_doubled h s.toList
  | mysql => exact readQuoted_escaped_doubled (by decide) h s.toList
  | sqlite => exact readQuoted_doubled h s.toList

/-! ## Scans of a literal -/

/-- A literal has doubled quotes and otherwise no quotes between its own two. -/
theorem escapeChars_eq_doubled (d : Dialect) (cs : List Char) :
    ∃ held, escapeChars d cs = doubled '\'' held := by
  cases d with
  | postgres => exact ⟨cs, rfl⟩
  | mysql => exact ⟨doubled '\\' cs, rfl⟩
  | sqlite => exact ⟨cs, rfl⟩

/-- After a quote and doubled quotes the scans are inside the quotes. -/
theorem passes_open {q : Char} (hq : isQuote q = true) (cs : List Char) :
    Passes none (q :: doubled q cs) (some q) := by
  obtain ⟨hafter, hread⟩ := read_doubled hq cs []
  rw [List.append_nil] at hafter hread
  have htokens : Reading.read .plain (q :: doubled q cs) =
      (q :: doubled q cs).map Token.quoted := by
    rw [Reading.read_plain_quote hq, hread, List.map_cons]
    exact congrArg _ (List.append_nil _)
  refine .of_reading (fun _ h => nomatch h) (fun c hc => Option.some.inj hc ▸ hq) ?_ ?_ ?_
  · rw [Reading.after_cons]
    simpa [Reading.ofQuote, Reading.step, Reading.fresh, hq] using hafter
  · rw [Reading.ofQuote, htokens, filterMap_name?_map_quoted]
  · have hcount := Reading.count_read .plain (q :: doubled q cs)
    rw [htokens, List.count_eq_zero.2 (by simp)] at hcount
    exact hcount.symm

/-- The scans reach the last character of a literal inside its quotes, and leave them with it. -/
theorem passes_textLiteral (d : Dialect) (s : String) :
    ∃ held, (textLiteral d s).toList = held ++ ['\''] ∧ Passes none held (some '\'') ∧
      Passes none (textLiteral d s).toList none := by
  obtain ⟨held, hheld⟩ := escapeChars_eq_doubled d s.toList
  refine ⟨'\'' :: escapeChars d s.toList, ?_, ?_, .of_seals (seals_textLiteral d s)⟩
  · rw [textLiteral, String.toList_ofList]
  · rw [hheld]
    exact passes_open (by decide) held

/-! ## Lists of texts -/

def textList (d : Dialect) (texts : List String) : String :=
  join ", " (texts.map (textLiteral d))

theorem separated_textList (d : Dialect) {texts : List String} (hne : texts ≠ [])
    (rest : List Char) :
    Separated (readLiteral d) [',', ' '] ((textList d texts).toList ++ ')' :: rest)
      (texts.map String.toList) (')' :: rest) := by
  refine .of_join ", " (fun rest => rest.head? ≠ some '\'') hne ?_ ?_ ?_ ?_
  · exact fun s _ rest h => readLiteral_textLiteral d s h
  · exact fun _ h => absurd (Option.some.inj h) (by decide)
  · exact fun h => absurd (Option.some.inj h) (by decide)
  · rintro ⟨after, hafter⟩
    exact absurd (List.cons.inj hafter).1 (by decide)

theorem textList_eq (d : Dialect) (texts : List String) :
    textList d texts = join ", " ((texts.map Value.text).map (literal d)) := by
  rw [textList, List.map_map]
  rfl

theorem passes_textList (d : Dialect) (texts : List String) :
    Passes none (textList d texts).toList none := by
  rw [textList_eq]
  exact .of_seals (seals_literals d _)

theorem renderComparison_list (scope : Scope) (column : String) (op : Comparison)
    {vs : List Value} (hne : vs ≠ []) :
    renderComparison scope column op (.list vs) =
      pure (scope.qualify column ++ (if op.isNegated then " NOT IN" else " IN") ++ " (" ++
        join ", " (vs.map (literal scope.dialect)) ++ ")") := by
  cases vs with
  | nil => exact absurd rfl hne
  | cons v vs => rfl

/-- Every text is written as one literal that says it, which the scans of a statement leave with its
last character and not before. A membership in a list of texts is written with literals that are
read as these texts, and the scans pass over the list. -/
theorem texts_written (d : Dialect) :
    (∀ (s : String) (rest : List Char), rest.head? ≠ some '\'' →
      readLiteral d ((textLiteral d s).toList ++ rest) = some (s.toList, rest)) ∧
    (∀ s : String, ∃ held, (textLiteral d s).toList = held ++ ['\''] ∧
      Passes none held (some '\'') ∧ Passes none (textLiteral d s).toList none) ∧
    ∀ (table : Option String) (column : String) (op : Comparison) (texts : List String),
      texts ≠ [] → ∃ list : String,
        renderComparison ⟨d, table⟩ column op (.list (texts.map .text)) =
          pure (Scope.qualify ⟨d, table⟩ column ++
            (if op.isNegated then " NOT IN" else " IN") ++ " (" ++ list ++ ")") ∧
        (∀ rest, Separated (readLiteral d) [',', ' '] (list.toList ++ ')' :: rest)
          (texts.map String.toList) (')' :: rest)) ∧
        Passes none list.toList none :=
  ⟨fun s _ h => readLiteral_textLiteral d s h, passes_textLiteral d,
    fun table column op texts hne => ⟨textList d texts, by
      rw [textList_eq, renderComparison_list ⟨d, table⟩ column op (by simpa using hne)],
      separated_textList d hne, passes_textList d texts⟩⟩

/-- Quotes and backslashes at the ends of texts, alone and in a list. -/
theorem slashesAndQuotes_written :
    ((", ".toList.head? ≠ some '\'') ∧
      readLiteral .mysql ((textLiteral .mysql "\\'\\").toList ++ ", ".toList) =
        some ("\\'\\".toList, ", ".toList)) ∧
    ["'", "\\"] ≠ [] ∧ ∃ list : String,
      renderComparison ⟨.mysql, none⟩ "a" .isIn (.list (["'", "\\"].map .text)) =
        pure (Scope.qualify ⟨.mysql, none⟩ "a" ++ " IN" ++ " (" ++ list ++ ")") ∧
      (∀ rest, Separated (readLiteral .mysql) [',', ' '] (list.toList ++ ')' :: rest)
        (["'", "\\"].map String.toList) (')' :: rest)) ∧
      Passes none list.toList none :=
  ⟨⟨by decide, (texts_written .mysql).1 "\\'\\" _ (by decide)⟩, by decide,
    (texts_written .mysql).2.2 none "a" .isIn ["'", "\\"] (by decide)⟩

end RowMapper.Sql
