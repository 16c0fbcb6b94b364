import RowMapper.Proofs.Value.WrittenIntegers

/-! # Texts that are read as numbers

A text that is read as a double has no decimal comma, so that a column of doubles, which takes a
comma for a point, reads it in the same way. A text that is read as an integer of 64 bits is read as
the nearest double as well.
-/

namespace RowMapper.Decimal

variable {cs : List Char} {x : Float}

theorem comma_not_mem (h : ∀ c ∈ cs, c.isDigit = true ∨ c ≠ ',') : ',' ∉ cs := by
  intro hmem
  rcases h ',' hmem with hdigit | hne
  · exact absurd hdigit (by decide)
  · exact hne rfl

theorem comma_not_mem_chars (w : WrittenInteger) : ',' ∉ w.chars := by
  refine comma_not_mem fun c hc => ?_
  rcases List.mem_append.1 hc with hc | hc
  · right
    rintro rfl
    cases hsign : w.sign <;> simp [hsign, WrittenSign.chars] at hc
  · rcases w.isDigit_or_of_mem_body hc with hdigit | rfl
    · exact .inl hdigit
    · exact .inr (by decide)

theorem comma_not_mem_of_readPlaces {p : List Char × Nat} (h : readPlaces cs = some p) :
    ',' ∉ cs := by
  have hwhole : ∀ c ∈ cs.takeWhile Char.isDigit, c.isDigit = true :=
    fun c hc => List.mem_takeWhile_imp hc
  refine comma_not_mem fun c hc => ?_
  rw [← List.takeWhile_append_dropWhile (p := Char.isDigit) (l := cs), List.mem_append] at hc
  rcases hc with hc | hc
  · exact .inl (hwhole c hc)
  · unfold readPlaces at h
    dsimp only at h
    split at h
    · next hrest =>
      rw [hrest] at hc
      cases hc
    · next places hrest =>
      split at h
      · next hplaces =>
        rw [hrest] at hc
        rcases List.mem_cons.1 hc with rfl | hc
        · exact .inr (by decide)
        · exact .inl (List.all_eq_true.1 (Bool.and_eq_true_iff.1 hplaces).1 c hc)
      · cases h
    · cases h

/-- The characters of a text are those around its exponent mark, and the mark. -/
theorem mem_splitExponent {c : Char} (h : c ∈ cs) : c ∈ (splitExponent cs).1 ∨ c = 'e' ∨ c = 'E' ∨
    ∃ e, (splitExponent cs).2 = some e ∧ c ∈ e := by
  rw [← List.takeWhile_append_dropWhile (p := fun c => !(c == 'e' || c == 'E')) (l := cs),
    List.mem_append] at h
  unfold splitExponent
  dsimp only
  split
  · next hrest =>
    rw [hrest] at h
    rcases h with h | h
    · exact .inl ((List.takeWhile_subset _) h)
    · cases h
  · next mark e hrest =>
    rw [hrest] at h
    rcases h with h | h
    · exact .inl h
    · have hmark : mark = 'e' ∨ mark = 'E' := by
        have hhead := List.head?_dropWhile_not (fun c => !(c == 'e' || c == 'E')) cs
        rw [hrest] at hhead
        simpa [or_iff_not_imp_left] using hhead
      rcases List.mem_cons.1 h with rfl | h
      · exact .inr (hmark.imp_right .inl)
      · exact .inr (.inr (.inr ⟨e, rfl, h⟩))

theorem comma_not_mem_of_readMagnitude (h : readMagnitude cs = some x) : ',' ∉ cs := by
  have hword {word : String} (hword : String.ofList (cs.map Char.toLower) = word)
      (hcomma : ',' ∉ word.toList) : ',' ∉ cs := by
    intro hmem
    subst hword
    rw [String.toList_ofList] at hcomma
    exact hcomma (List.mem_map_of_mem hmem)
  unfold readMagnitude at h
  split at h
  · next heq => exact hword heq (by decide)
  · next heq => exact hword heq (by decide)
  · next heq => exact hword heq (by decide)
  · intro hmem
    cases hsplit : splitExponent cs with
    | mk body tail =>
      have hparts := mem_splitExponent hmem
      simp only [hsplit] at h hparts
      split at h
      · next hplaces =>
        rcases hparts with hbody | hmark | hmark | ⟨e, htail, -⟩
        · exact comma_not_mem_of_readPlaces hplaces hbody
        · exact absurd hmark (by decide)
        · exact absurd hmark (by decide)
        · cases htail
      · next e hplaces =>
        obtain ⟨n, hexponent, -⟩ := Option.map_eq_some_iff.1 h
        obtain ⟨w, hw, -⟩ := WrittenInteger.exists_of_readInt hexponent
        rcases hparts with hbody | hmark | hmark | ⟨e', htail, he⟩
        · exact comma_not_mem_of_readPlaces hplaces hbody
        · exact absurd hmark (by decide)
        · exact absurd hmark (by decide)
        · rw [← Option.some.inj htail, ← hw] at he
          exact comma_not_mem_chars w he
      · cases h

theorem comma_not_mem_of_readFloat (h : readFloat cs = some x) : ',' ∉ cs := by
  unfold readFloat at h
  split at h
  · obtain ⟨y, hread, -⟩ := Option.map_eq_some_iff.1 h
    simpa using comma_not_mem_of_readMagnitude hread
  · simpa using comma_not_mem_of_readMagnitude h
  · exact comma_not_mem_of_readMagnitude h

/-- An integer of 64 bits is read as the nearest double too. -/
theorem exists_readFloat_of_readInt64 {n : Int} (h : readInt64 cs = some n) :
    ∃ x, readFloat cs = some x ∧ IsNearest x n := by
  obtain ⟨hread, -⟩ := Option.filter_eq_some_iff.1 h
  obtain ⟨w, rfl, rfl⟩ := WrittenInteger.exists_of_readInt hread
  exact w.readFloat_chars

end RowMapper.Decimal
