import RowMapper.Sql.Identifier
import Mathlib.Data.List.Infix

/-! # Where a name has an alias

The phrase between a name and its alias is looked for in the lower-cased text. Only ASCII
letters have a letter of the phrase for their lower-case form, so the phrase stands in the
lower-cased text just where it stands in the text itself, in any case. What may differ is how
many bytes come before it: every character counts with the length of its lower-case form.
-/

namespace RowMapper.Text

/-- What a character becomes when a text is lower-cased, between the characters before it, last
one first, and those after it. -/
def lowered (before : List Char) (c : Char) (after : List Char) : List Char :=
  if c.toNat = 0x3A3 then
    [Char.ofNat (if nextIsCased before && !nextIsCased after then 0x3C2 else 0x3C3)]
  else lowerChar c

theorem lowerChars_cons (before : List Char) (c : Char) (cs : List Char) :
    lowerChars before (c :: cs) = lowered before c cs ++ lowerChars (c :: before) cs := rfl

theorem lowered_of_ascii {c : Char} (h : c.toNat < 128) (before after : List Char) :
    lowered before c after = [c.toLower] := by
  have hsigma : c.toNat ≠ 0x3A3 := by omega
  rw [lowered, if_neg hsigma, lowerChar, if_pos h]

/-- A property of all ASCII characters is checked code by code. -/
theorem forall_ascii {P : Char → Prop} (hP : ∀ n < 128, P (Char.ofNat n)) {c : Char}
    (h : c.toNat < 128) : P c := by
  have hc := hP c.toNat h
  rwa [Char.ofNat_toNat] at hc

theorem toLower_of_not_ascii {c : Char} (h : 128 ≤ c.toNat) : c.toLower = c := by
  unfold Char.toLower
  split
  · next hu =>
    simp only [ge_iff_le, UInt32.le_iff_toNat_le] at hu
    simp only [Char.reduceVal, UInt32.reduceToNat] at hu
    change 128 ≤ c.val.toNat at h
    omega
  · rfl

theorem toNat_ofNat (n : Nat) : (Char.ofNat n).toNat = n ∨ (Char.ofNat n).toNat = 0 := by
  by_cases h : n.isValidChar
  · rw [Char.ofNat, dif_pos h]
    exact .inl rfl
  · rw [Char.ofNat, dif_neg h]
    exact .inr rfl

/-- A code point that is sent somewhere lies in a run, and is moved by the shift of that run. -/
theorem exists_run_of_shiftIn {runs : List (Nat × Nat × Nat × Int)} {n m : Nat}
    (h : shiftIn runs n = some m) :
    ∃ run ∈ runs, run.1 ≤ n ∧ n ≤ run.2.1 ∧ m = ((n : Int) + run.2.2.2).toNat := by
  obtain ⟨run, hfind, hm⟩ := Option.map_eq_some_iff.1 h
  have hrange := List.find?_some hfind
  simp only [Bool.and_eq_true, decide_eq_true_eq] at hrange
  exact ⟨run, List.mem_of_find?_eq_some hfind, hrange.1.1, hrange.1.2, hm.symm⟩

/-- No character outside ASCII has one of the letters of ` as ` for its lower-case form. -/
theorem shiftIn_lowerRuns {n m : Nat} (h : shiftIn CaseTable.lowerRuns n = some m) :
    m ≠ 32 ∧ m ≠ 97 ∧ m ≠ 115 := by
  have htable : ∀ run ∈ CaseTable.lowerRuns, ∀ x ∈ [(32 : Int), 97, 115],
      x < (run.1 : Int) + run.2.2.2 ∨ (run.2.1 : Int) + run.2.2.2 < x := by
    decide +kernel
  obtain ⟨run, hmem, hfirst, hlast, rfl⟩ := exists_run_of_shiftIn h
  have hne (x : Int) (hx : x ∈ [(32 : Int), 97, 115]) : (n : Int) + run.2.2.2 ≠ x := by
    have := htable run hmem x hx
    omega
  have hspace := hne 32 (by simp)
  have ha := hne 97 (by simp)
  have hs := hne 115 (by simp)
  omega

end RowMapper.Text

namespace RowMapper.Sql

open Text

def aliasPhrase : List Char := [' ', 'a', 's', ' ']

/-- Whether ` as ` stands in a text, in any case. -/
def HasAlias (cs : List Char) : Prop := aliasPhrase <:+: cs.map Char.toLower

instance (cs : List Char) : Decidable (HasAlias cs) :=
  inferInstanceAs (Decidable (_ <:+: _))

def lowerLength : List Char → Nat
  | [] => 0
  | c :: cs => byteLength (lowerChar c) + lowerLength cs

theorem toNat_of_mem_aliasPhrase {x : Char} (h : x ∈ aliasPhrase) :
    x.toNat = 32 ∨ x.toNat = 97 ∨ x.toNat = 115 := by
  simp only [aliasPhrase, List.mem_cons, List.not_mem_nil, or_false] at h
  rcases h with rfl | rfl | rfl | rfl <;> decide

theorem not_mem_aliasPhrase {c : Char} (h : 128 ≤ c.toNat) : c ∉ aliasPhrase := by
  intro hmem
  have := toNat_of_mem_aliasPhrase hmem
  omega

/-- Outside ASCII nothing is lower-cased to a character of the phrase. -/
theorem not_mem_aliasPhrase_lowered {c : Char} (h : 128 ≤ c.toNat) (before after : List Char) :
    ∀ y ∈ lowered before c after, y ∉ aliasPhrase := by
  have hsmall : ¬c.toNat < 128 := by omega
  unfold lowered lowerChar
  rw [if_neg hsmall]
  split
  · split <;> exact List.forall_mem_singleton.2 (by decide)
  · split
    · exact List.forall_mem_cons.2 ⟨by decide, List.forall_mem_singleton.2 (by decide)⟩
    · split
      · next n hn =>
        rw [List.forall_mem_singleton]
        intro hmem
        have hcode := toNat_of_mem_aliasPhrase hmem
        obtain ⟨hspace, ha, hs⟩ := shiftIn_lowerRuns hn
        rcases toNat_ofNat n with hnat | hnat <;> omega
      · exact List.forall_mem_singleton.2 (not_mem_aliasPhrase h)

theorem byteLength_lowered (before : List Char) (c : Char) (after : List Char) :
    byteLength (lowered before c after) = byteLength (lowerChar c) := by
  unfold lowered
  split
  · next hsigma =>
    have hc : c = Char.ofNat 0x3A3 := by
      rw [← hsigma, Char.ofNat_toNat]
    subst hc
    split <;> decide +kernel
  · rfl

/-! ## The phrase in the lower-cased text -/

theorem lowerChar_ne_nil (c : Char) : lowerChar c ≠ [] := by
  unfold lowerChar
  split
  · simp
  · split
    · simp
    · split <;> simp

theorem lowered_ne_nil (before : List Char) (c : Char) (after : List Char) :
    lowered before c after ≠ [] := by
  unfold lowered
  split
  · simp
  · exact lowerChar_ne_nil c

/-- The lower-cased text goes on with characters of the phrase just where the text does. -/
theorem isPrefixOf_lowerChars {cs : List Char} : ∀ {phrase : List Char} (before : List Char),
    (∀ x ∈ phrase, x ∈ aliasPhrase) →
      phrase.isPrefixOf (lowerChars before cs) = phrase.isPrefixOf (cs.map Char.toLower) := by
  induction cs with
  | nil =>
    intro phrase before _
    rfl
  | cons c cs ih =>
    intro phrase before hphrase
    cases phrase with
    | nil => simp
    | cons x phrase =>
      rw [lowerChars_cons, List.map_cons]
      by_cases hc : c.toNat < 128
      · rw [lowered_of_ascii hc, List.singleton_append, List.isPrefixOf, List.isPrefixOf,
          ih (c :: before) fun y hy => hphrase y (List.mem_cons_of_mem x hy)]
      · have hlarge : 128 ≤ c.toNat := by omega
        have hx := hphrase x List.mem_cons_self
        have hnot := not_mem_aliasPhrase_lowered hlarge before cs
        cases hlow : lowered before c cs with
        | nil => exact absurd hlow (lowered_ne_nil before c cs)
        | cons l ls =>
          have hl : x ≠ l := by
            rintro rfl
            exact hnot x (by simp [hlow]) hx
          have hc : x ≠ c.toLower := by
            rw [toLower_of_not_ascii hlarge]
            rintro rfl
            exact not_mem_aliasPhrase hlarge hx
          rw [List.cons_append, List.isPrefixOf, List.isPrefixOf, beq_false_of_ne hl,
            beq_false_of_ne hc]
          rfl

theorem breakPhrase_skip {phrase ys : List Char} {x : Char} (h : ∀ y ∈ ys, y ≠ x)
    (zs : List Char) : breakPhrase (x :: phrase) (ys ++ zs) =
      (breakPhrase (x :: phrase) zs).map fun (before, after) => (ys ++ before, after) := by
  induction ys with
  | nil => simp
  | cons y ys ih =>
    have hy : x ≠ y := (h y List.mem_cons_self).symm
    rw [List.cons_append, breakPhrase, ih fun z hz => h z (List.mem_cons_of_mem y hz)]
    simp [List.isPrefixOf, hy, Option.map_map, Function.comp_def]

theorem breakPhrase_of_isPrefixOf {cs : List Char} (h : aliasPhrase.isPrefixOf cs = true) :
    ∃ after, breakPhrase aliasPhrase cs = some ([], after) := by
  cases cs with
  | nil => cases h
  | cons c cs =>
    rw [breakPhrase, if_pos h]
    exact ⟨_, rfl⟩

theorem byteLength_append (xs ys : List Char) :
    byteLength (xs ++ ys) = byteLength xs + byteLength ys := by
  induction xs with
  | nil => simp [byteLength]
  | cons x xs ih => rw [List.cons_append, byteLength, byteLength, ih, Nat.add_assoc]

/-- Past a character at which the phrase does not begin, the search goes on behind its lower-case
form. -/
theorem breakPhrase_lowered {before cs : List Char} {c : Char}
    (h : aliasPhrase.isPrefixOf (lowerChars before (c :: cs)) = false) :
    breakPhrase aliasPhrase (lowerChars before (c :: cs)) =
      (breakPhrase aliasPhrase (lowerChars (c :: before) cs)).map fun (b, a) =>
        (lowered before c cs ++ b, a) := by
  rw [lowerChars_cons] at h ⊢
  by_cases hc : c.toNat < 128
  · rw [lowered_of_ascii hc, List.singleton_append] at h ⊢
    rw [breakPhrase, h]
    rfl
  · have hnot := not_mem_aliasPhrase_lowered (c := c) (by omega) before cs
    refine breakPhrase_skip (fun y hy => ?_) _
    rintro rfl
    exact hnot _ hy List.mem_cons_self

/-- The phrase first stands in the lower-cased text where it first stands in the text, and what is
before it has the length of what is lower-cased there. -/
theorem breakPhrase_lowerChars {cs : List Char} : ∀ before : List Char,
    (breakPhrase aliasPhrase (lowerChars before cs)).map (fun parts => byteLength parts.1) =
      (breakPhrase aliasPhrase (cs.map Char.toLower)).map fun parts =>
        lowerLength (cs.take parts.1.length) := by
  induction cs with
  | nil =>
    intro before
    rfl
  | cons c cs ih =>
    intro before
    have hsame : aliasPhrase.isPrefixOf (lowerChars before (c :: cs)) =
        aliasPhrase.isPrefixOf ((c :: cs).map Char.toLower) :=
      isPrefixOf_lowerChars before fun x hx => hx
    cases hbegins : aliasPhrase.isPrefixOf ((c :: cs).map Char.toLower) with
    | true =>
      rw [hbegins] at hsame
      obtain ⟨a, hlower⟩ := breakPhrase_of_isPrefixOf hsame
      obtain ⟨b, htext⟩ := breakPhrase_of_isPrefixOf hbegins
      rw [hlower, htext]
      rfl
    | false =>
      rw [hbegins] at hsame
      rw [breakPhrase_lowered hsame, Option.map_map, List.map_cons, breakPhrase]
      rw [List.map_cons] at hbegins
      rw [hbegins, if_neg (by simp), Option.map_map]
      have h := congrArg (Option.map (byteLength (lowerChar c) + ·)) (ih (c :: before))
      rw [Option.map_map, Option.map_map] at h
      simpa [Function.comp_def, byteLength_append, byteLength_lowered, lowerLength] using h

/-- The byte at which the alias is cut off: where its phrase first stands in the text, counted with
the lengths of the lower-cased characters. -/
theorem aliasOffset?_eq (name : String) : aliasOffset? name =
    (breakPhrase aliasPhrase (name.toList.map Char.toLower)).map fun parts =>
      lowerLength (name.toList.take parts.1.length) := by
  rw [← breakPhrase_lowerChars []]
  simp only [aliasOffset?, lower, String.toList_ofList]
  rfl

theorem breakPhrase_eq_none {phrase cs : List Char} (h : ¬phrase <:+: cs) :
    breakPhrase phrase cs = none := by
  cases hbreak : breakPhrase phrase cs with
  | none => rfl
  | some parts => exact absurd ⟨parts.1, parts.2, (breakPhrase_eq_some hbreak).symm⟩ h

theorem aliasOffset?_eq_none {name : String} (h : ¬HasAlias name.toList) :
    aliasOffset? name = none := by
  rw [aliasOffset?_eq, breakPhrase_eq_none h]
  rfl

theorem splitAlias_eq_none {name : String} (h : ¬HasAlias name.toList) :
    splitAlias name = none := by
  rw [splitAlias, aliasOffset?_eq_none h]
  rfl

/-! ## Parts of a text -/

theorem HasAlias.mono {xs ys : List Char} (h : xs <:+: ys) (hx : HasAlias xs) : HasAlias ys :=
  List.IsInfix.trans hx (h.map _)

theorem trimChars_isInfix (cs : List Char) : trimChars cs <:+: cs := by
  have hend : trimChars cs <+: cs.dropWhile isBlank := by
    have hsuffix := List.dropWhile_suffix (l := (cs.dropWhile isBlank).reverse) isBlank
    rw [← List.reverse_prefix] at hsuffix
    simpa [trimChars] using hsuffix
  exact hend.isInfix.trans (List.dropWhile_suffix isBlank).isInfix

theorem HasAlias.of_trim {cs : List Char} (h : HasAlias (trimChars cs)) : HasAlias cs :=
  h.mono (trimChars_isInfix cs)

end RowMapper.Sql
