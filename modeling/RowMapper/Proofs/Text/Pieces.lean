import RowMapper.Text.Pieces
import Mathlib.Data.List.TakeWhile

/-! # Pieces put together again

What is joined with a separator that none of the pieces has is split into the same pieces, and
what was split and is joined again is the text. Blanks at the ends of a text are blanks at the
ends of its first and last piece.
-/

namespace RowMapper.Text

/-! ## Splitting -/

section Split

variable {sep : Char}

theorem splitChars_of_not_mem {cs : List Char} (h : sep ∉ cs) : splitChars sep cs = [cs] := by
  induction cs with
  | nil => rfl
  | cons c cs ih =>
    obtain ⟨hne, hcs⟩ := not_or.1 (List.mem_cons.not.1 h)
    rw [splitChars, if_neg (Ne.symm hne), ih hcs]

theorem splitChars_append_cons {piece : List Char} (h : sep ∉ piece) (cs : List Char) :
    splitChars sep (piece ++ sep :: cs) = piece :: splitChars sep cs := by
  induction piece with
  | nil => rw [List.nil_append, splitChars, if_pos rfl]
  | cons c piece ih =>
    obtain ⟨hne, hpiece⟩ := not_or.1 (List.mem_cons.not.1 h)
    rw [List.cons_append, splitChars, if_neg (Ne.symm hne), ih hpiece]

theorem splitChars_intercalate {pieces : List (List Char)} (hne : pieces ≠ [])
    (h : ∀ piece ∈ pieces, sep ∉ piece) : splitChars sep ([sep].intercalate pieces) = pieces := by
  induction pieces with
  | nil => exact absurd rfl hne
  | cons piece pieces ih =>
    have hpiece := h piece List.mem_cons_self
    cases pieces with
    | nil => rw [List.intercalate_singleton, splitChars_of_not_mem hpiece]
    | cons next rest =>
      rw [List.intercalate_cons_cons, List.append_assoc, List.singleton_append,
        splitChars_append_cons hpiece,
        ih (List.cons_ne_nil _ _) fun p hp => h p (List.mem_cons_of_mem _ hp)]

theorem mem_intercalate {pieces : List (List Char)} {c : Char}
    (h : c ∈ [sep].intercalate pieces) : c = sep ∨ ∃ piece ∈ pieces, c ∈ piece := by
  induction pieces with
  | nil => cases h
  | cons piece pieces ih =>
    cases pieces with
    | nil =>
      rw [List.intercalate_singleton] at h
      exact .inr ⟨piece, List.mem_cons_self, h⟩
    | cons next rest =>
      rw [List.intercalate_cons_cons, List.mem_append, List.mem_append, List.mem_singleton] at h
      rcases h with (h | h) | h
      · exact .inr ⟨piece, List.mem_cons_self, h⟩
      · exact .inl h
      · exact (ih h).imp_right fun ⟨p, hp, hc⟩ => ⟨p, List.mem_cons_of_mem _ hp, hc⟩

theorem splitChars_cons {c : Char} (h : c ≠ sep) {cs piece : List Char} {rest : List (List Char)}
    (hcs : splitChars sep cs = piece :: rest) :
    splitChars sep (c :: cs) = (c :: piece) :: rest := by
  rw [splitChars, if_neg h, hcs]

theorem mem_of_mem_splitChars {cs piece : List Char} {c : Char} (hpiece : piece ∈ splitChars sep cs)
    (hc : c ∈ piece) : c ∈ cs ∧ c ≠ sep := by
  induction cs generalizing piece with
  | nil =>
    rw [splitChars, List.mem_singleton] at hpiece
    subst hpiece
    cases hc
  | cons d cs ih =>
    have hbehind {p : List Char} (hp : p ∈ splitChars sep cs) (hcp : c ∈ p) :
        c ∈ d :: cs ∧ c ≠ sep := (ih hp hcp).imp_left (List.mem_cons_of_mem d)
    by_cases hd : d = sep
    · rw [splitChars, if_pos hd] at hpiece
      rcases List.mem_cons.1 hpiece with rfl | hpiece
      · cases hc
      · exact hbehind hpiece hc
    · obtain ⟨first, rest, hcs⟩ := List.exists_cons_of_ne_nil (splitChars_ne_nil sep cs)
      rw [splitChars_cons hd hcs] at hpiece
      rw [hcs] at hbehind
      rcases List.mem_cons.1 hpiece with rfl | hpiece
      · rcases List.mem_cons.1 hc with rfl | hc
        · exact ⟨List.mem_cons_self, hd⟩
        · exact hbehind List.mem_cons_self hc
      · exact hbehind (List.mem_cons_of_mem _ hpiece) hc

theorem intercalate_splitChars (cs : List Char) : [sep].intercalate (splitChars sep cs) = cs := by
  induction cs with
  | nil => rw [splitChars, List.intercalate_singleton]
  | cons c cs ih =>
    obtain ⟨piece, rest, hcs⟩ := List.exists_cons_of_ne_nil (splitChars_ne_nil sep cs)
    rw [hcs] at ih
    by_cases hc : c = sep
    · rw [splitChars, if_pos hc, hcs, List.intercalate_cons_cons, ih, hc]
      rfl
    · rw [splitChars_cons hc hcs]
      cases rest with
      | nil =>
        rw [List.intercalate_singleton] at ih ⊢
        rw [ih]
      | cons next rest =>
        rw [List.intercalate_cons_cons] at ih ⊢
        rw [List.cons_append, List.cons_append, ih]

theorem exists_splitChars_concat {c : Char} (h : c ≠ sep) (cs : List Char) :
    ∃ front last, splitChars sep cs = front ++ [last] ∧
      splitChars sep (cs ++ [c]) = front ++ [last ++ [c]] := by
  induction cs with
  | nil => exact ⟨[], [], rfl, splitChars_of_not_mem (by simpa using h.symm)⟩
  | cons d cs ih =>
    obtain ⟨front, last, hcs, hconcat⟩ := ih
    by_cases hd : d = sep
    · refine ⟨[] :: front, last, ?_, ?_⟩
      · rw [splitChars, if_pos hd, hcs, List.cons_append]
      · rw [List.cons_append, splitChars, if_pos hd, hconcat, List.cons_append]
    · cases front with
      | nil => exact ⟨[], d :: last, splitChars_cons hd hcs, splitChars_cons hd hconcat⟩
      | cons piece front =>
        exact ⟨(d :: piece) :: front, last, splitChars_cons hd hcs, splitChars_cons hd hconcat⟩

end Split

theorem breakPhrase_first {x : Char} {before : List Char} (h : x ∉ before) (after : List Char) :
    breakPhrase [x] (before ++ x :: after) = some (before, after) := by
  induction before with
  | nil => simp [breakPhrase]
  | cons c before ih =>
    obtain ⟨hne, hbefore⟩ := not_or.1 (List.mem_cons.not.1 h)
    rw [List.cons_append, breakPhrase, if_neg (by simpa using hne), ih hbefore, Option.map_some]

theorem dropWhile_reverse_concat {x : Char} {cs : List Char} (h : x ∉ cs) :
    ((cs ++ [x]).reverse.dropWhile (· == x)).reverse = cs := by
  rw [List.reverse_concat, List.dropWhile_cons_of_pos (by simp)]
  rw [← List.mem_reverse] at h
  cases hcs : cs.reverse with
  | nil => rw [List.dropWhile_nil, ← hcs, List.reverse_reverse]
  | cons d ds =>
    rw [hcs, List.mem_cons, not_or] at h
    rw [List.dropWhile_cons_of_neg (by simpa using Ne.symm h.1), ← hcs, List.reverse_reverse]

/-! ## Trimming -/

theorem trimChars_cons {b : Char} (h : isBlank b = true) (cs : List Char) :
    trimChars (b :: cs) = trimChars cs := by
  rw [trimChars, List.dropWhile_cons_of_pos h, trimChars]

theorem dropWhile_isBlank_concat {b : Char} (h : isBlank b = true) (cs : List Char) :
    ((cs ++ [b]).reverse.dropWhile isBlank).reverse = (cs.reverse.dropWhile isBlank).reverse := by
  rw [List.reverse_concat, List.dropWhile_cons_of_pos h]

theorem trimChars_concat {b : Char} (h : isBlank b = true) (cs : List Char) :
    trimChars (cs ++ [b]) = trimChars cs := by
  induction cs with
  | nil => exact trimChars_cons h []
  | cons c cs ih =>
    by_cases hc : isBlank c = true
    · rw [List.cons_append, trimChars_cons hc, trimChars_cons hc, ih]
    · rw [trimChars, trimChars, List.cons_append, List.dropWhile_cons_of_neg hc,
        List.dropWhile_cons_of_neg hc, ← List.cons_append, dropWhile_isBlank_concat h]

/-- What takes no notice of one blank at an end takes no notice of all the blanks there. -/
theorem eq_of_ignores_blanks {α : Type} {f : List Char → α}
    (hfront : ∀ {b : Char}, isBlank b = true → ∀ cs, f (b :: cs) = f cs)
    (hback : ∀ {b : Char}, isBlank b = true → ∀ cs, f (cs ++ [b]) = f cs)
    {before after : List Char} (hbefore : ∀ c ∈ before, isBlank c = true)
    (hafter : ∀ c ∈ after, isBlank c = true) (cs : List Char) :
    f (before ++ cs ++ after) = f cs := by
  have hend : f (cs ++ after) = f cs := by
    induction after generalizing cs with
    | nil => rw [List.append_nil]
    | cons b after ih =>
      rw [List.append_cons, ih (fun c hc => hafter c (List.mem_cons_of_mem b hc)),
        hback (hafter b List.mem_cons_self)]
  rw [List.append_assoc]
  induction before with
  | nil => exact hend
  | cons b before ih =>
    rw [List.cons_append, hfront (hbefore b List.mem_cons_self),
      ih fun c hc => hbefore c (List.mem_cons_of_mem b hc)]

theorem trimChars_append {before after : List Char} (hbefore : ∀ c ∈ before, isBlank c = true)
    (hafter : ∀ c ∈ after, isBlank c = true) (cs : List Char) :
    trimChars (before ++ cs ++ after) = trimChars cs :=
  eq_of_ignores_blanks trimChars_cons trimChars_concat hbefore hafter cs

theorem trimChars_eq_self_of_ends {c d : Char} (hc : isBlank c = false) (hd : isBlank d = false)
    (cs : List Char) : trimChars (c :: cs ++ [d]) = c :: cs ++ [d] := by
  rw [trimChars, List.cons_append, List.dropWhile_cons_of_neg (by simp [hc]), ← List.cons_append,
    List.reverse_concat, List.dropWhile_cons_of_neg (by simp [hd]), ← List.reverse_concat,
    List.reverse_reverse]

theorem exists_trimChars (cs : List Char) : ∃ before after, (∀ c ∈ before, isBlank c = true) ∧
    (∀ c ∈ after, isBlank c = true) ∧ cs = before ++ trimChars cs ++ after := by
  refine ⟨cs.takeWhile isBlank, ((cs.dropWhile isBlank).reverse.takeWhile isBlank).reverse,
    fun c => List.mem_takeWhile_imp, fun c hc => List.mem_takeWhile_imp (List.mem_reverse.1 hc),
    ?_⟩
  rw [trimChars, List.append_assoc, ← List.reverse_append, List.takeWhile_append_dropWhile,
    List.reverse_reverse, List.takeWhile_append_dropWhile]

theorem mem_trimChars {c : Char} {cs : List Char} (hc : c ∈ cs) (hblank : isBlank c = false) :
    c ∈ trimChars cs := by
  obtain ⟨before, after, hbefore, hafter, hcs⟩ := exists_trimChars cs
  rw [hcs, List.mem_append, List.mem_append] at hc
  rcases hc with (hc | hc) | hc
  · rw [hbefore c hc] at hblank
    cases hblank
  · exact hc
  · rw [hafter c hc] at hblank
    cases hblank

section Split

variable {sep : Char}

theorem map_trimChars_splitChars_cons {b : Char} (hsep : isBlank sep = false)
    (h : isBlank b = true) (cs : List Char) :
    (splitChars sep (b :: cs)).map trimChars = (splitChars sep cs).map trimChars := by
  have hne : b ≠ sep := by
    rintro rfl
    rw [h] at hsep
    cases hsep
  cases hcs : splitChars sep cs with
  | nil => exact absurd hcs (splitChars_ne_nil sep cs)
  | cons piece rest =>
    rw [splitChars_cons hne hcs, List.map_cons, List.map_cons, trimChars_cons h]

theorem map_trimChars_splitChars_concat {b : Char} (hsep : isBlank sep = false)
    (h : isBlank b = true) (cs : List Char) :
    (splitChars sep (cs ++ [b])).map trimChars = (splitChars sep cs).map trimChars := by
  have hne : b ≠ sep := by
    rintro rfl
    rw [h] at hsep
    cases hsep
  obtain ⟨front, last, hcs, hconcat⟩ := exists_splitChars_concat hne cs
  rw [hcs, hconcat, List.map_append, List.map_append, List.map_singleton, List.map_singleton,
    trimChars_concat h]

/-- Trimmed pieces are the same whether the text was trimmed before or not. -/
theorem map_trimChars_splitChars_trimChars (hsep : isBlank sep = false) (cs : List Char) :
    (splitChars sep (trimChars cs)).map trimChars = (splitChars sep cs).map trimChars := by
  obtain ⟨before, after, hbefore, hafter, hcs⟩ := exists_trimChars cs
  have hblanks := eq_of_ignores_blanks (f := fun cs => (splitChars sep cs).map trimChars)
    (map_trimChars_splitChars_cons hsep) (map_trimChars_splitChars_concat hsep) hbefore hafter
    (trimChars cs)
  rw [← hcs] at hblanks
  exact hblanks.symm

end Split

end RowMapper.Text
