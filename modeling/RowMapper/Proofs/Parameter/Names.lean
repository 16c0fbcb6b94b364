import RowMapper.Proofs.Render.Runs
import Mathlib.Data.List.Nodup

/-! # Names of parameters

Each bound value gets a name of its own: a bare name that starts with a letter
or an underscore, and that no value bound before has. The search for a free number
tries one number more than there are names, so by counting it finds one.
-/

namespace RowMapper.Sql

theorem isNameChar_of_isDigit {c : Char} (h : c.isDigit = true) : isNameChar c = true := by
  simp [isNameChar, Char.isAlphanum, h]

theorem isNameStart_of_isNameChar {c : Char} (h : isNameChar c = true) (hd : ¬c.isDigit = true) :
    isNameStart c = true := by
  simp only [isNameStart, isNameChar, Char.isAlphanum, Bool.or_eq_true] at h ⊢
  exact h.imp_left fun h => h.resolve_right hd

theorem isNameChar_of_isLower {c : Char} (h : c.isLower = true) : isNameChar c = true := by
  change (((c.isUpper || c.isLower) || c.isDigit) || c == '_') = true
  rw [h, Bool.or_true, Bool.true_or, Bool.true_or]

theorem isNameChar_toLower {c : Char} (h : isNameChar c = true) : isNameChar c.toLower = true := by
  unfold Char.toLower
  split
  · next hu =>
    apply isNameChar_of_isLower
    change (decide ('a'.val ≤ c.val + 32) && decide (c.val + 32 ≤ 'z'.val)) = true
    rw [Bool.and_eq_true, decide_eq_true_eq, decide_eq_true_eq]
    simp only [ge_iff_le, UInt32.le_iff_toNat_le, UInt32.toNat_add] at hu ⊢
    simp only [Char.reduceVal, UInt32.reduceToNat] at hu ⊢
    omega
  · exact h

theorem all_isNameChar_toString (n : Nat) : (toString n).toList.all isNameChar = true := by
  rw [List.all_eq_true]
  intro c hc
  rw [Nat.toString_eq_repr, Nat.toList_repr] at hc
  exact isNameChar_of_isDigit (Nat.isDigit_of_mem_toDigits (by decide) (by decide) hc)

theorem toString_injective {m n : Nat} (h : toString m = toString n) : m = n := by
  have hd := congrArg String.toList h
  rw [Nat.toString_eq_repr, Nat.toString_eq_repr, Nat.toList_repr, Nat.toList_repr] at hd
  rw [← Nat.ofDigitChars_ten_toDigits (n := m), hd, Nat.ofDigitChars_ten_toDigits]

namespace ParamSink

def names (s : ParamSink) : List String := s.parameters.map Parameter.name

theorem isUsed_iff {s : ParamSink} {name : String} : s.isUsed name = true ↔ name ∈ s.names := by
  simp [isUsed, names]

theorem isNameChars_baseName (column : String) : isNameChars (baseName column).toList = true := by
  have hall : (((Text.lastPiece '.' column).toList.filter isNameChar).map Char.toLower).all
      isNameChar = true := by
    simp only [List.all_map, List.all_eq_true, List.mem_filter, Function.comp_apply]
    exact fun c hc => isNameChar_toLower hc.2
  unfold baseName
  dsimp only
  split
  · decide
  · next c cs hcs =>
    rw [hcs, List.all_cons, Bool.and_eq_true] at hall
    rcases hall with ⟨hc, hrest⟩
    split
    · rw [String.toList_ofList, isNameChars, List.all_cons, hc, hrest]
      decide
    · next hd =>
      rw [String.toList_ofList, isNameChars, isNameStart_of_isNameChar hc hd, hrest]
      rfl

theorem isNameChars_append {xs ys : List Char} (hx : isNameChars xs = true)
    (hy : ys.all isNameChar = true) : isNameChars (xs ++ ys) = true := by
  cases xs with
  | nil => cases hx
  | cons c cs =>
    simp only [isNameChars, List.cons_append, List.all_append, Bool.and_eq_true] at hx ⊢
    exact ⟨hx.1, hx.2, hy⟩

/-! ## Freshness -/

/-- When the number found is taken, all numbers up to it were. -/
theorem isUsed_of_isUsed_freeNumber {s : ParamSink} {base : String} {n fuel : Nat}
    (h : s.isUsed (base ++ toString (s.freeNumber base n fuel)) = true) :
    ∀ i ≤ fuel, s.isUsed (base ++ toString (n + 1 + i)) = true := by
  induction fuel generalizing n with
  | zero =>
    intro i hi
    obtain rfl : i = 0 := by omega
    exact h
  | succ fuel ih =>
    rw [freeNumber] at h
    split at h
    · next hu =>
      intro i hi
      cases i with
      | zero => exact hu
      | succ i =>
        have hi' := ih h i (by omega)
        rwa [show n + 1 + 1 + i = n + 1 + (i + 1) by omega] at hi'
    · next hu => exact absurd h hu

theorem isUsed_freeNumber (s : ParamSink) (base : String) (n : Nat) :
    s.isUsed (base ++ toString (s.freeNumber base n s.parameters.length)) = false := by
  by_contra h
  have hused := isUsed_of_isUsed_freeNumber (Bool.not_eq_false _ ▸ h)
  let tried := (List.range (s.parameters.length + 1)).map fun i => base ++ toString (n + 1 + i)
  have hnodup : tried.Nodup := by
    refine List.nodup_range.map fun i j hij => ?_
    have := toString_injective (String.append_right_inj base |>.1 hij)
    omega
  have hsub : tried ⊆ s.names := by
    intro name hname
    obtain ⟨i, hi, rfl⟩ := List.mem_map.1 hname
    exact isUsed_iff.1 (hused i (by have := List.mem_range.1 hi; omega))
  have hlen := hnodup.length_le_of_subset hsub
  simp only [tried, names, List.length_map, List.length_range] at hlen
  omega

/-- A bound value has a bare name that was not given out before, and its placeholder is that
name after a colon. -/
theorem fresh_of_bind {column : String} {v : Value} {s s' : ParamSink} {text : String}
    (h : bind column v s = .ok text s') : ∃ name, text = ":" ++ name ∧
      s'.parameters = s.parameters ++ [⟨name, v, s.category⟩] ∧ name ∉ s.names ∧
        isNameChars name.toList = true := by
  cases h
  refine ⟨_, rfl, rfl, ?_, ?_⟩
  · rw [← isUsed_iff, nextNumber, isUsed_freeNumber]
    exact Bool.false_ne_true
  · rw [String.toList_append]
    exact isNameChars_append (isNameChars_baseName column) (all_isNameChar_toString _)

end ParamSink

end RowMapper.Sql
