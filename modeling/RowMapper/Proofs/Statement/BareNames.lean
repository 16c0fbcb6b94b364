import RowMapper.Proofs.Placeholder.Token
import RowMapper.Proofs.Parameter.Names
import RowMapper.Proofs.Query.ListedEntries

/-! # Bare names in statements

A bare name stands for itself wherever a statement takes a name: it has no blank, dot,
comma or alias in it, so it is neither cut into parts nor taken for an expression, and
only its quotes depend on whether it is reserved.
-/

namespace RowMapper.Sql

open Text

/-- A letter or an underscore, and letters, digits and underscores after it. -/
def IsBare (name : String) : Prop := isNameChars name.toList = true

instance (name : String) : Decidable (IsBare name) := inferInstanceAs (Decidable (_ = true))

/-! ## Characters of names -/

theorem toNat_lt_of_isNameChar {c : Char} (h : isNameChar c = true) : c.toNat < 128 := by
  change (((decide (c.val ≥ 'A'.val ∧ c.val ≤ 'Z'.val) ||
    (decide (c.val ≥ 'a'.val) && decide (c.val ≤ 'z'.val))) ||
    (decide (c.val ≥ '0'.val) && decide (c.val ≤ '9'.val))) || c == '_') = true at h
  simp only [Bool.or_eq_true, Bool.and_eq_true, decide_eq_true_eq, beq_iff_eq, ge_iff_le,
    UInt32.le_iff_toNat_le] at h
  rcases h with (((⟨-, h⟩ | ⟨-, h⟩)) | ⟨-, h⟩) | rfl
  · exact Nat.lt_of_le_of_lt h (by decide)
  · exact Nat.lt_of_le_of_lt h (by decide)
  · exact Nat.lt_of_le_of_lt h (by decide)
  · decide

theorem isBlank_of_isNameChar {c : Char} (h : isNameChar c = true) : isBlank c = false := by
  cases hblank : isBlank c with
  | false => rfl
  | true =>
    have hsmall := toNat_lt_of_isNameChar h
    have hcode : c.toNat ∈ [9, 10, 11, 12, 13, 32] := by
      simp only [isBlank, Bool.or_eq_true, Bool.and_eq_true, decide_eq_true_eq, beq_iff_eq]
        at hblank
      simp only [List.mem_cons, List.not_mem_nil, or_false]
      omega
    have hofNat : c = Char.ofNat c.toNat := (Char.ofNat_toNat c).symm
    generalize c.toNat = n at hcode hofNat
    subst hofNat
    simp only [List.mem_cons, List.not_mem_nil, or_false] at hcode
    rcases hcode with rfl | rfl | rfl | rfl | rfl | rfl <;> exact absurd h (by decide)

theorem lowerChars_of_isNameChar {cs : List Char} (h : ∀ c ∈ cs, isNameChar c = true)
    (before : List Char) : lowerChars before cs = cs.map Char.toLower := by
  induction cs generalizing before with
  | nil => rfl
  | cons c cs ih =>
    have hc := toNat_lt_of_isNameChar (h c List.mem_cons_self)
    have hsigma : c.toNat ≠ 0x3A3 := by omega
    rw [lowerChars, if_neg hsigma, lowerChar, if_pos hc,
      ih (fun c' hc' => h c' (List.mem_cons_of_mem c hc'))]
    rfl

namespace IsBare

variable {name : String}

theorem isNameChar (h : IsBare name) : ∀ c ∈ name.toList, Sql.isNameChar c = true := by
  unfold IsBare at h
  cases hname : name.toList with
  | nil => simp
  | cons c cs =>
    rw [hname, isNameChars, Bool.and_eq_true, List.all_eq_true] at h
    intro c' hc'
    rcases List.mem_cons.1 hc' with rfl | hc'
    · exact isNameChar_of_isNameStart h.1
    · exact h.2 c' hc'

theorem ne_empty (h : IsBare name) : name ≠ "" := by
  rintro rfl
  exact absurd h (by decide)

theorem not_mem (h : IsBare name) {c : Char} (hc : Sql.isNameChar c = false) :
    c ∉ name.toList := by
  intro hmem
  rw [h.isNameChar c hmem] at hc
  cases hc

/-! ## What names are read for -/

theorem trim_eq (h : IsBare name) : trim name = name :=
  trim_eq_self fun c hc => isBlank_of_isNameChar (h.isNameChar c hc)

theorem isExpression_eq (h : IsBare name) : isExpression name = false := by
  rw [isExpression, List.any_eq_false]
  intro c hc hmem
  have hnot : Sql.isNameChar c = false := by
    simp only [List.mem_cons, List.not_mem_nil, or_false, decide_eq_true_eq] at hmem
    rcases hmem with rfl | rfl | rfl | rfl | rfl | rfl | rfl <;> decide
  exact h.not_mem hnot hc

theorem splitAlias_eq (h : IsBare name) : splitAlias name = none := by
  have hphrase : breakPhrase " as ".toList (lower name).toList = none := by
    cases hbreak : breakPhrase " as ".toList (lower name).toList with
    | none => rfl
    | some parts =>
      have hblank : ' ' ∈ (lower name).toList := by
        rw [breakPhrase_eq_some hbreak]
        simp
      rw [lower, String.toList_ofList, lowerChars_of_isNameChar h.isNameChar] at hblank
      obtain ⟨c, hc, hlower⟩ := List.mem_map.1 hblank
      have hname := isNameChar_toLower (h.isNameChar c hc)
      rw [hlower] at hname
      exact absurd hname (by decide)
  rw [splitAlias, aliasOffset?, hphrase]
  rfl

theorem split_eq (h : IsBare name) {sep : Char} (hsep : Sql.isNameChar sep = false) :
    split sep name = [name] := by
  rw [split, splitChars_of_not_mem (h.not_mem hsep), List.map_singleton, String.ofList_toList]

theorem listed_eq (h : IsBare name) : listed name = [name] := by
  have hne {c mark : Char} (hc : c ∈ name.toList) (hmark : Sql.isNameChar mark = false) :
      c ≠ mark := ne_of_mem_of_not_mem hc (h.not_mem hmark)
  have hwhole : StaysWhole name.toList := staysWhole_of_plain fun c hc =>
    ⟨hne hc (by decide), hne hc (by decide), hne hc (by decide)⟩
  rw [listed, hwhole.listedFrom_eq]
  simp [h.trim_eq, h.ne_empty]

/-! ## What is written for names -/

theorem quoteQualified_eq (h : IsBare name) (d : Dialect) :
    quoteQualified d name = quoteIdentifier d name := by
  have hsegments : quoteSegments d name = quoteIdentifier d name := by
    rw [quoteSegments, h.split_eq (by decide)]
    rfl
  rw [quoteQualified]
  cases name.length with
  | zero =>
    unfold quoteQualifiedFrom
    rw [h.trim_eq, hsegments]
  | succ fuel =>
    unfold quoteQualifiedFrom
    rw [h.trim_eq, h.splitAlias_eq, hsegments]

theorem columnText_eq (h : IsBare name) (d : Dialect) :
    columnText d name = quoteIdentifier d name := by
  have hplain : (name.toList.any fun c => c ∈ ['(', ')', ' ', '\'', '"', '\x60']) = false := by
    have hexpression := h.isExpression_eq
    rw [isExpression, List.any_eq_false] at hexpression
    rw [List.any_eq_false]
    intro c hc hmem
    have hsubset : ['(', ')', ' ', '\'', '"', '\x60'] ⊆ ['(', ')', ' ', '\'', '"', '\x60', ','] :=
      by decide
    exact hexpression c hc (decide_eq_true (hsubset (of_decide_eq_true hmem)))
  rw [columnText, h.splitAlias_eq]
  simp only [hplain, Bool.false_eq_true, if_false, h.quoteQualified_eq]

theorem qualify_eq (h : IsBare name) (scope : Scope) : scope.qualify name =
    match scope.table with
    | some table => quoteQualified scope.dialect table ++ "." ++ quoteIdentifier scope.dialect name
    | none => quoteIdentifier scope.dialect name := by
  have hdot : name.toList.contains '.' = false := by
    simpa using h.not_mem (c := '.') (by decide)
  rw [Scope.qualify, h.trim_eq, h.isExpression_eq, hdot]
  rfl

end IsBare

end RowMapper.Sql
