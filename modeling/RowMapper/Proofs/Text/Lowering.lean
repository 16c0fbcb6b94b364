import RowMapper.Proofs.Alias.Occurrence

/-! # What lower-casing leaves alone

Blanks, digits and the marks of a list of numbers are their own lower-case forms, and no other
character is lower-cased to one of them. So such marks stand in the lower-cased text where they
stand in the text, and a text of marks alone is not changed.
-/

namespace RowMapper.Text

def isMark (c : Char) : Bool :=
  isBlank c || c.isDigit || c == '+' || c == ',' || c == '(' || c == ')'

def wideBlanks : List Nat :=
  [0x85, 0xA0, 0x1680, 0x2000, 0x2001, 0x2002, 0x2003, 0x2004, 0x2005, 0x2006, 0x2007, 0x2008,
    0x2009, 0x200A, 0x2028, 0x2029, 0x202F, 0x205F, 0x3000]

theorem isMark_of_not_ascii {c : Char} (h : 128 ≤ c.toNat) :
    isMark c = true ↔ c.toNat ∈ wideBlanks := by
  have hne (d : Char) (hd : d.toNat < 128) : (c == d) = false := by
    rw [beq_eq_false_iff_ne]
    rintro rfl
    omega
  have hdigit : c.isDigit = false := by
    have hcode : ¬(48 ≤ c.toNat ∧ c.toNat ≤ 57) := by omega
    rw [Bool.eq_false_iff]
    exact fun hd => hcode (Char.isDigit_iff_toNat.1 hd)
  rw [isMark, hdigit, hne '+' (by decide), hne ',' (by decide), hne '(' (by decide),
    hne ')' (by decide)]
  simp only [isBlank, wideBlanks, Bool.or_false, Bool.or_eq_true, Bool.and_eq_true,
    decide_eq_true_eq, beq_iff_eq, List.mem_cons, List.not_mem_nil, or_false]
  omega

theorem isMark_of_letter {c : Char} (hfirst : 65 ≤ c.toNat) (hlast : c.toNat ≤ 122) :
    isMark c = false := by
  have hne (d : Char) (hd : d.toNat < 65) : (c == d) = false := by
    rw [beq_eq_false_iff_ne]
    rintro rfl
    omega
  have hdigit : c.isDigit = false := by
    have hcode : ¬(48 ≤ c.toNat ∧ c.toNat ≤ 57) := by omega
    rw [Bool.eq_false_iff]
    exact fun hd => hcode (Char.isDigit_iff_toNat.1 hd)
  have hblank : isBlank c = false := by
    simp only [isBlank, Bool.or_eq_false_iff, Bool.and_eq_false_iff, decide_eq_false_iff_not,
      beq_eq_false_iff_ne]
    omega
  rw [isMark, hblank, hdigit, hne '+' (by decide), hne ',' (by decide), hne '(' (by decide),
    hne ')' (by decide)]
  rfl

/-- In ASCII capital letters alone are changed, and they become letters. -/
theorem toLower_cases (c : Char) :
    c.toLower = c ∨ 65 ≤ c.toNat ∧ c.toNat ≤ 90 ∧ c.toLower.toNat = c.toNat + 32 := by
  unfold Char.toLower
  split
  · next hcapital =>
    simp only [ge_iff_le, UInt32.le_iff_toNat_le, Char.reduceVal, UInt32.reduceToNat] at hcapital
    have hlast : c.val.toNat ≤ 90 := hcapital.2
    have hshift : ('a'.val - 'A'.val).toNat = 32 := by decide
    have hcode : (c.val + ('a'.val - 'A'.val)).toNat = c.val.toNat + 32 := by
      rw [UInt32.toNat_add, hshift]
      omega
    exact .inr ⟨hcapital.1, hlast, hcode⟩
  · exact .inl rfl

def blankGaps : List (Nat × Nat) :=
  [(0xA1, 0x167F), (0x1681, 0x1FFF), (0x200B, 0x2027), (0x2030, 0x205E), (0x2060, 0x2FFF),
    (0x3001, 0x10FFFF)]

theorem notBlank_of_blankGap {gap : Nat × Nat} (hgap : gap ∈ blankGaps) {n : Nat}
    (hfirst : gap.1 ≤ n) (hlast : n ≤ gap.2) : n ∉ wideBlanks ∧ 128 ≤ n := by
  have htable : ∀ gap ∈ blankGaps, 128 ≤ gap.1 ∧ ∀ x ∈ wideBlanks, x < gap.1 ∨ gap.2 < x := by
    decide
  obtain ⟨hlow, hblanks⟩ := htable gap hgap
  refine ⟨fun hn => ?_, by omega⟩
  have := hblanks n hn
  omega

/-- Every run of the table leads from between two blanks to between two blanks, but for the Kelvin
sign, which is lower-cased into ASCII. -/
theorem lowerRuns_between_blanks : ∀ run ∈ CaseTable.lowerRuns,
    (∃ gap ∈ blankGaps, gap.1 ≤ run.1 ∧ run.2.1 ≤ gap.2) ∧
    ((∃ gap ∈ blankGaps, (gap.1 : Int) ≤ run.1 + run.2.2.2 ∧ run.2.1 + run.2.2.2 ≤ (gap.2 : Int)) ∨
      run.1 + run.2.2.2 = 0x6B ∧ run.1 = run.2.1) := by
  decide +kernel

theorem shiftIn_lowerRuns_notMark {n m : Nat} (h : shiftIn CaseTable.lowerRuns n = some m) :
    n ∉ wideBlanks ∧ m ∉ wideBlanks ∧ (m = 0x6B ∨ 128 ≤ m) := by
  obtain ⟨run, hmem, hfirst, hlast, rfl⟩ := exists_run_of_shiftIn h
  obtain ⟨⟨source, hsource, hlow, hhigh⟩, htarget⟩ := lowerRuns_between_blanks run hmem
  refine ⟨(notBlank_of_blankGap hsource (by omega) (by omega)).1, ?_⟩
  rcases htarget with ⟨gap, hgap, hlow', hhigh'⟩ | ⟨hkelvin, hone⟩
  · obtain ⟨hblank, hbound⟩ := notBlank_of_blankGap hgap
      (n := ((n : Int) + run.2.2.2).toNat) (by omega) (by omega)
    exact ⟨hblank, .inr hbound⟩
  · have hm : ((n : Int) + run.2.2.2).toNat = 0x6B := by omega
    rw [hm]
    exact ⟨by decide, .inl rfl⟩

theorem lowered_of_isMark {c : Char} (h : isMark c = true) (before after : List Char) :
    lowered before c after = [c] := by
  by_cases hc : c.toNat < 128
  · rw [lowered_of_ascii hc]
    rcases toLower_cases c with hself | ⟨hfirst, hlast, -⟩
    · rw [hself]
    · rw [isMark_of_letter hfirst (by omega)] at h
      cases h
  · have hblank := (isMark_of_not_ascii (by omega)).1 h
    have hne : ∀ n ∈ wideBlanks, n ≠ 0x3A3 ∧ n ≠ 0x130 := by decide
    obtain ⟨hsigma, hdotted⟩ := hne _ hblank
    have hshift : shiftIn CaseTable.lowerRuns c.toNat = none := by
      cases hm : shiftIn CaseTable.lowerRuns c.toNat with
      | none => rfl
      | some m => exact absurd hblank (shiftIn_lowerRuns_notMark hm).1
    rw [lowered, if_neg hsigma, lowerChar, if_neg hc, if_neg hdotted, hshift]

/-- Letters and the rest are not lower-cased to marks. -/
theorem isMark_of_mem_lowered {c : Char} (h : isMark c = false) (before after : List Char) :
    ∀ d ∈ lowered before c after, isMark d = false := by
  by_cases hc : c.toNat < 128
  · rw [lowered_of_ascii hc, List.forall_mem_singleton]
    rcases toLower_cases c with hself | ⟨hfirst, hlast, hcode⟩
    · rwa [hself]
    · exact isMark_of_letter (by omega) (by omega)
  · unfold lowered lowerChar
    rw [if_neg hc]
    split
    · split <;> exact List.forall_mem_singleton.2 (by decide)
    · split
      · exact List.forall_mem_cons.2 ⟨by decide, List.forall_mem_singleton.2 (by decide)⟩
      · split
        · next m hm =>
          obtain ⟨-, hblank, hbound⟩ := shiftIn_lowerRuns_notMark hm
          rw [List.forall_mem_singleton, Bool.eq_false_iff]
          intro hmark
          rcases toNat_ofNat m with hcode | hcode
          · rcases hbound with rfl | hlarge
            · exact absurd hmark (by decide)
            · rw [← hcode] at hblank hlarge
              exact hblank ((isMark_of_not_ascii hlarge).1 hmark)
          · have hnull : Char.ofNat m = Char.ofNat 0 := by
              rw [← hcode, Char.ofNat_toNat]
            rw [hnull] at hmark
            exact absurd hmark (by decide)
        · exact List.forall_mem_singleton.2 h

theorem isBlank_of_isBlank_toLower {c : Char} (h : isBlank c.toLower = false) :
    isBlank c = false := by
  rcases toLower_cases c with hself | ⟨hfirst, hlast, -⟩
  · rwa [hself] at h
  · have hmark := isMark_of_letter hfirst (by omega)
    simp only [isMark, Bool.or_eq_false_iff] at hmark
    exact hmark.1.1.1.1.1

/-! ## Parts of a lower-cased text -/

/-- What a text may become when it is lower-cased as a part of some text. -/
inductive Lowers : List Char → List Char → Prop
  | nil : Lowers [] []
  | cons (before : List Char) (c : Char) (after : List Char) {cs ds : List Char} :
      Lowers cs ds → Lowers (c :: cs) (lowered before c after ++ ds)

theorem lowers_lowerChars (before cs : List Char) : Lowers cs (lowerChars before cs) := by
  induction cs generalizing before with
  | nil => exact .nil
  | cons c cs ih => exact .cons before c cs (ih _)

namespace Lowers

variable {cs ds : List Char}

theorem of_append {as bs : List Char} (h : Lowers (as ++ bs) ds) :
    ∃ xs ys, ds = xs ++ ys ∧ Lowers as xs ∧ Lowers bs ys := by
  induction as generalizing ds with
  | nil => exact ⟨[], ds, rfl, .nil, h⟩
  | cons a as ih =>
    cases h with
    | cons before _ after htail =>
      obtain ⟨xs, ys, rfl, hxs, hys⟩ := ih htail
      exact ⟨_, ys, (List.append_assoc _ _ _).symm, .cons before a after hxs, hys⟩

theorem of_mark {c : Char} (hc : isMark c = true) (h : Lowers (c :: cs) ds) :
    ∃ ds', ds = c :: ds' ∧ Lowers cs ds' := by
  cases h with
  | cons before _ after htail =>
    rw [lowered_of_isMark hc]
    exact ⟨_, rfl, htail⟩

theorem eq_of_marks (hcs : ∀ c ∈ cs, isMark c = true) (h : Lowers cs ds) : ds = cs := by
  induction cs generalizing ds with
  | nil => cases h; rfl
  | cons c cs ih =>
    obtain ⟨ds', rfl, htail⟩ := h.of_mark (hcs c List.mem_cons_self)
    rw [ih (fun c' hc' => hcs c' (List.mem_cons_of_mem c hc')) htail]

theorem eq_map_of_ascii (hcs : ∀ c ∈ cs, c.toNat < 128) (h : Lowers cs ds) :
    ds = cs.map Char.toLower := by
  induction h with
  | nil => rfl
  | cons before c after htail ih =>
    rw [lowered_of_ascii (hcs c List.mem_cons_self), List.map_cons,
      ih fun c' hc' => hcs c' (List.mem_cons_of_mem c hc')]
    rfl

theorem mem_of_isMark {m : Char} (hm : isMark m = true) (h : Lowers cs ds) (hmem : m ∈ ds) :
    m ∈ cs := by
  induction h with
  | nil => exact hmem
  | cons before c after htail ih =>
    rcases List.mem_append.1 hmem with hhead | htail
    · cases hc : isMark c with
      | true =>
        rw [lowered_of_isMark hc, List.mem_singleton] at hhead
        exact hhead ▸ List.mem_cons_self
      | false =>
        rw [isMark_of_mem_lowered hc before after m hhead] at hm
        cases hm
    · exact List.mem_cons_of_mem c (ih htail)

theorem exists_not_mark (h : Lowers cs ds) (hcs : ∃ c ∈ cs, isMark c = false) :
    ∃ d ∈ ds, isMark d = false := by
  induction h with
  | nil =>
    obtain ⟨c, hc, -⟩ := hcs
    cases hc
  | cons before c after htail ih =>
    obtain ⟨c', hmem, hc'⟩ := hcs
    rcases List.mem_cons.1 hmem with rfl | hmem
    · obtain ⟨d, hd⟩ := List.exists_mem_of_ne_nil _ (Sql.lowered_ne_nil before c' after)
      exact ⟨d, List.mem_append_left _ hd, isMark_of_mem_lowered hc' before after d hd⟩
    · obtain ⟨d, hd, hmark⟩ := ih ⟨c', hmem, hc'⟩
      exact ⟨d, List.mem_append_right _ hd, hmark⟩

end Lowers

end RowMapper.Text
