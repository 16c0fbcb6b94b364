import RowMapper.Proofs.Placeholder.Reads
import RowMapper.Proofs.Placeholder.Outline
import RowMapper.Sql.Write

/-! # Names, literals and text of the caller

Identifiers and literals hide nothing and open nothing: whatever stands in them,
the reader finds no placeholder there and is outside quotes after them. Text of the
caller is read the same way as long as it is tame.
-/

namespace RowMapper.Sql

open Text

/-! ## Quoted text -/

theorem doubled_self (q : Char) (cs : List Char) :
    doubled q (q :: cs) = q :: q :: doubled q cs := by
  simp [doubled]

theorem doubled_other {c q : Char} (h : c ≠ q) (cs : List Char) :
    doubled q (c :: cs) = c :: doubled q cs := by
  simp [doubled, h]

/-- Doubled quotes lead from inside quotes to inside quotes, and are quoted text all of them. -/
theorem read_doubled {q : Char} (hq : isQuote q = true) (cs rest : List Char) :
    Reading.after (.quoted q) (doubled q cs ++ rest) = Reading.after (.quoted q) rest ∧
      Reading.read (.quoted q) (doubled q cs ++ rest) =
        (doubled q cs).map Token.quoted ++ Reading.read (.quoted q) rest := by
  induction cs with
  | nil => exact ⟨rfl, rfl⟩
  | cons c cs ih =>
    obtain ⟨hafter, hread⟩ := ih
    by_cases hc : c = q
    · subst hc
      rw [doubled_self, List.cons_append, List.cons_append, Reading.read_quoted_self,
        Reading.read_plain_quote hq, hread]
      refine ⟨?_, rfl⟩
      simpa [Reading.after_cons, Reading.step, Reading.fresh, hq] using hafter
    · rw [doubled_other hc, List.cons_append, Reading.read_quoted_other hc, hread]
      refine ⟨?_, rfl⟩
      simpa [Reading.after_cons, Reading.step, hc] using hafter

theorem filterMap_name?_map_quoted (cs : List Char) :
    (cs.map Token.quoted).filterMap Token.name? = [] := by
  induction cs with
  | nil => rfl
  | cons c cs ih => simpa using ih

theorem seals_quoteChars {q : Char} (hq : isQuote q = true) (cs : List Char) :
    Seals (String.ofList (quoteChars q cs)) [] 0 := by
  obtain ⟨hafter, hread⟩ := read_doubled hq cs [q]
  have htokens : tokens (quoteChars q cs) = (quoteChars q cs).map Token.quoted := by
    rw [tokens, quoteChars, List.cons_append, Reading.read_plain_quote hq, hread,
      Reading.read_quoted_self, List.map_cons, List.map_append]
    rfl
  refine ⟨?_, ?_, ?_⟩
  · rw [String.toList_ofList, IsClosed, quoteChars, List.cons_append, Reading.after_cons]
    simpa [Reading.after_cons, Reading.step, Reading.fresh, hq] using hafter
  · rw [String.toList_ofList, htokens, filterMap_name?_map_quoted]
  · rw [String.toList_ofList, htokens, List.count_eq_zero]
    simp

/-! ## Identifiers -/

theorem inert_of_isNameChars {t : String} (h : isNameChars t.toList = true) : Inert t := by
  unfold Inert
  cases ht : t.toList with
  | nil => rfl
  | cons c cs =>
    rw [ht, isNameChars, Bool.and_eq_true, List.all_eq_true] at h
    rw [List.all_cons, Bool.and_eq_true, List.all_eq_true]
    exact ⟨isInert_of_isNameChar (isNameChar_of_isNameStart h.1),
      fun x hx => isInert_of_isNameChar (h.2 x hx)⟩

theorem isQuote_identifierQuote (d : Dialect) : isQuote d.identifierQuote = true := by
  cases d <;> decide

theorem seals_quoteIdentifier (d : Dialect) (name : String) :
    Seals (quoteIdentifier d name) [] 0 := by
  unfold quoteIdentifier
  split
  · next h =>
    apply Inert.seals
    rcases (Bool.or_eq_true ..).mp h with h | h
    · rw [of_decide_eq_true h]
      decide
    · rw [isPlainIdentifier, Bool.and_eq_true] at h
      exact inert_of_isNameChars h.1
  · exact seals_quoteChars (isQuote_identifierQuote d) _

theorem seals_join {sep : String} (hsep : Inert sep) {ts : List String}
    (h : ∀ t ∈ ts, Seals t [] 0) : Seals (join sep ts) [] 0 := by
  induction ts with
  | nil => exact seals_empty
  | cons t ts ih =>
    have ht := h t List.mem_cons_self
    have hts := ih fun u hu => h u (List.mem_cons_of_mem _ hu)
    cases ts with
    | nil => exact ht
    | cons u us => exact (ht.close hsep).append hts

theorem seals_quoteSegments (d : Dialect) (name : String) : Seals (quoteSegments d name) [] 0 := by
  refine seals_join (by decide) fun t ht => ?_
  obtain ⟨segment, -, rfl⟩ := List.mem_map.1 ht
  exact seals_quoteIdentifier d segment

theorem seals_quoteQualified (d : Dialect) (name : String) :
    Seals (quoteQualified d name) [] 0 := by
  have h (fuel : Nat) (name : String) : Seals (quoteQualifiedFrom d fuel name) [] 0 := by
    induction fuel generalizing name with
    | zero => exact seals_quoteSegments d _
    | succ fuel ih =>
      unfold quoteQualifiedFrom
      split
      · exact ((ih _).close (by decide)).append (seals_quoteIdentifier d _)
      · exact seals_quoteSegments d _
  exact h _ name

/-! ## Literals -/

theorem inert_natText (n : Nat) : Inert (toString n) := by
  rw [Inert, List.all_eq_true]
  intro c hc
  rw [Nat.toString_eq_repr, Nat.toList_repr] at hc
  have hd := Nat.isDigit_of_mem_toDigits (by decide) (by decide) hc
  exact isInert_of_isNameChar (by simp [isNameChar, Char.isAlphanum, hd])

theorem inert_intText (n : Int) : Inert (toString n) := by
  rw [Int.toString_eq_repr]
  cases n with
  | ofNat n => exact inert_natText n
  | negSucc n => exact Inert.append (by decide) (inert_natText (n + 1))

theorem inert_take {cs : List Char} (h : cs.all isInert = true) (n : Nat) :
    Inert (String.ofList (cs.take n)) := by
  rw [Inert, String.toList_ofList, List.all_eq_true]
  exact fun c hc => List.all_eq_true.1 h c (List.mem_of_mem_take hc)

theorem inert_drop {cs : List Char} (h : cs.all isInert = true) (n : Nat) :
    Inert (String.ofList (cs.drop n)) := by
  rw [Inert, String.toList_ofList, List.all_eq_true]
  exact fun c hc => List.all_eq_true.1 h c (List.mem_of_mem_drop hc)

theorem inert_zeros (n : Nat) : Inert (Decimal.zeros n) := by
  rw [Inert, Decimal.zeros, String.toList_ofList, List.all_eq_true]
  intro c hc
  rw [List.eq_of_mem_replicate hc]
  decide

theorem inert_positional (d : Decimal.Digits) : Inert d.positional := by
  have htext : Inert (Decimal.digitText d.digits) := inert_natText _
  unfold Decimal.Digits.positional
  dsimp only
  split
  · exact htext.append (inert_zeros _)
  · split
    · exact (Inert.append (by decide) (inert_zeros _)).append htext
    · exact ((inert_take htext _).append (by decide)).append (inert_drop htext _)

theorem inert_plainText (x : Float) : Inert (Decimal.plainText x) := by
  unfold Decimal.plainText
  split
  · decide
  · split <;> decide
  · refine Inert.append (by split <;> decide) ?_
    split
    · decide
    · exact inert_positional _

theorem inert_boolLiteral (d : Dialect) (b : Bool) : Inert (d.boolLiteral b) := by
  cases d <;> cases b <;> decide

theorem seals_textLiteral (d : Dialect) (s : String) : Seals (textLiteral d s) [] 0 := by
  cases d with
  | postgres => exact seals_quoteChars (q := '\'') (by decide) s.toList
  | mysql => exact seals_quoteChars (q := '\'') (by decide) (doubled '\\' s.toList)
  | sqlite => exact seals_quoteChars (q := '\'') (by decide) s.toList

theorem seals_literal (d : Dialect) (v : Value) : Seals (literal d v) [] 0 := by
  unfold literal
  split
  · exact Inert.seals (by decide)
  · exact (inert_boolLiteral d _).seals
  · exact (inert_intText _).seals
  · exact (inert_intText _).seals
  · split
    · exact (inert_plainText _).seals
    · exact Inert.seals (by decide)
  · exact seals_textLiteral d _

/-! ## Text of the caller -/

/-- Tame text leads outside quotes and has no placeholder. -/
theorem read_tame {quote : Option Char} {cs : List Char} (h : isTameFrom quote cs = true) :
    (Reading.ofQuote quote).after cs = .plain ∧
      ((Reading.ofQuote quote).read cs).filterMap Token.name? = [] := by
  induction cs generalizing quote with
  | nil =>
    cases quote with
    | none => exact ⟨rfl, rfl⟩
    | some q => cases h
  | cons c cs ih =>
    rw [Reading.after_cons, Reading.read_cons, List.filterMap_append]
    cases quote with
    | none =>
      rw [isTameFrom, Bool.and_eq_true, Bool.and_eq_true, bne_iff_ne] at h
      rcases h with ⟨⟨hc, -⟩, h⟩
      obtain ⟨hafter, hread⟩ := ih h
      rw [Reading.step_ofQuote_none hc, hread]
      refine ⟨hafter, ?_⟩
      split <;> rfl
    | some q =>
      obtain ⟨hafter, hread⟩ := ih h
      rw [Reading.step_ofQuote_some, hread]
      exact ⟨hafter, rfl⟩

theorem seals_of_isTame {t : String} (h : (Ingredient.copied t).isTame = true) :
    Seals t [] (questionMarks t) := by
  have h : isTameFrom none t.toList = true := h
  obtain ⟨hafter, hread⟩ := read_tame h
  exact ⟨hafter, hread, (questionMarks_eq_count t).symm⟩

theorem seals_qualify (scope : Scope) {column : String} (h : AllTame (columnParts column)) :
    Seals (scope.qualify column) [] (marksOf (columnParts column)) := by
  unfold columnParts at h ⊢
  unfold Scope.qualify
  dsimp only
  split
  · next he =>
    simp only [he, if_true, allTame_cons] at h
    simpa [Ingredient.marks] using seals_of_isTame h.1
  · rw [marksOf_nil]
    split
    · exact seals_quoteQualified _ _
    · split
      · exact ((seals_quoteQualified _ _).close (by decide)).append (seals_quoteIdentifier _ _)
      · exact seals_quoteIdentifier _ _

theorem columnText_eq (d : Dialect) (column : String) : columnText d column =
    if isSelectedExpression column then trim column else quoteQualified d column := by
  unfold columnText isSelectedExpression
  cases splitAlias column <;> rfl

theorem seals_columnText (d : Dialect) {column : String} (h : AllTame (selectedParts column)) :
    Seals (columnText d column) [] (marksOf (selectedParts column)) := by
  rw [columnText_eq]
  unfold selectedParts at h ⊢
  split
  · next he =>
    rw [if_pos he] at h
    rw [marksOf_cons, marksOf_nil, Nat.add_zero]
    exact seals_of_isTame (allTame_cons.1 h).1
  · exact seals_quoteQualified d column

/-! ## Fixed words -/

theorem inert_symbol (op : Comparison) : Inert op.symbol := by
  cases op <;> decide

theorem inert_joinKeywords (kind : JoinKind) : Inert kind.keywords := by
  cases kind <;> decide

theorem inert_directionKeyword (direction : Direction) : Inert direction.keyword := by
  cases direction <;> decide

theorem inert_currentTimestamp (d : Dialect) : Inert d.currentTimestamp := by
  cases d <;> decide

theorem inert_limitText (d : Dialect) (limit offset : Option Nat) :
    Inert (limitText d limit offset) := by
  have hsteps (a : String) (n : Nat) (ha : Inert a) : Inert (a ++ toString n) :=
    ha.append (inert_natText n)
  unfold limitText
  split
  · exact hsteps _ _ ((hsteps _ _ (by decide)).append (by decide))
  · split <;> exact hsteps _ _ (by decide)
  · decide

end RowMapper.Sql
