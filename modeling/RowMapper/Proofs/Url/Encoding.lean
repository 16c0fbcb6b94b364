import RowMapper.Url.Basic
import RowMapper.Proofs.Text.Pieces

/-! # Encoded parts of a URL

In an encoded part no character is left that the part does not allow, so encoding it again changes
nothing. All that is left is visible ASCII, and of that nothing is cleaned away when a URL is read.
-/

namespace RowMapper.Url

open Text

theorem ne_of_test {test : Char → Bool} {c d : Char} (hc : test c = false) (hd : test d = true) :
    c ≠ d :=
  ne_of_apply_ne test (by simp [hc, hd])

/-! ## Encoding -/

/-- What a percent sign and its two digits are made of is not encoded. -/
structure LeavesBytes (encoded : Char → Bool) : Prop where
  percent : encoded '%' = false
  digit : ∀ n < 16, encoded (upperHexDigit n) = false

theorem leavesBytes_isControl : LeavesBytes isControl := ⟨by decide, by decide⟩

theorem leavesBytes_encodedInPath : LeavesBytes encodedInPath := ⟨by decide, by decide⟩

theorem leavesBytes_encodedInUserInfo : LeavesBytes encodedInUserInfo := ⟨by decide, by decide⟩

variable {encoded : Char → Bool}

theorem mem_encodeChar {c d : Char} (hd : d ∈ encodeChar encoded c) :
    encoded c = false ∧ d = c ∨ d = '%' ∨ ∃ n < 16, d = upperHexDigit n := by
  unfold encodeChar at hd
  split at hd
  · obtain ⟨b, -, hbyte⟩ := List.mem_flatMap.1 hd
    have hb := UInt8.toNat_lt b
    simp only [percentByte, List.mem_cons, List.not_mem_nil, or_false] at hbyte
    rcases hbyte with rfl | rfl | rfl
    · exact .inr (.inl rfl)
    · exact .inr (.inr ⟨_, by omega, rfl⟩)
    · exact .inr (.inr ⟨_, by omega, rfl⟩)
  · next hc => exact .inl ⟨by simpa using hc, List.mem_singleton.1 hd⟩

/-- Nothing that is encoded is left. -/
theorem LeavesBytes.of_mem_encodeChar (h : LeavesBytes encoded) {c d : Char}
    (hd : d ∈ encodeChar encoded c) : encoded d = false := by
  rcases mem_encodeChar hd with ⟨hc, rfl⟩ | rfl | ⟨n, hn, rfl⟩
  · exact hc
  · exact h.percent
  · exact h.digit n hn

theorem encodeChar_ne_nil (encoded : Char → Bool) (c : Char) : encodeChar encoded c ≠ [] := by
  unfold encodeChar
  split
  · obtain ⟨b, bytes, hbytes⟩ :=
      List.exists_cons_of_ne_nil (String.utf8EncodeChar_ne_nil (c := c))
    rw [hbytes, List.flatMap_cons, percentByte]
    exact List.cons_ne_nil _ _
  · exact List.cons_ne_nil _ _

theorem LeavesBytes.of_mem_flatMap (h : LeavesBytes encoded) {d : Char} {cs : List Char}
    (hd : d ∈ cs.flatMap (encodeChar encoded)) : encoded d = false := by
  obtain ⟨c, -, hd⟩ := List.mem_flatMap.1 hd
  exact h.of_mem_encodeChar hd

theorem flatMap_encodeChar_eq_self {cs : List Char} (h : ∀ c ∈ cs, encoded c = false) :
    cs.flatMap (encodeChar encoded) = cs := by
  induction cs with
  | nil => rfl
  | cons c cs ih =>
    rw [List.forall_mem_cons] at h
    rw [List.flatMap_cons, ih h.2, encodeChar, h.1]
    rfl

/-! ## What is never encoded twice -/

theorem isControl_of_encodedInPath {c : Char} (h : encodedInPath c = false) :
    isControl c = false ∧ c ≠ ' ' := by
  simp only [encodedInPath, Bool.or_eq_false_iff, decide_eq_false_iff_not, List.mem_cons,
    not_or] at h
  exact ⟨h.1, h.2.1⟩

theorem encodedInPath_of_encodedInUserInfo {c : Char} (h : encodedInUserInfo c = false) :
    encodedInPath c = false := by
  rw [encodedInUserInfo, Bool.or_eq_false_iff] at h
  exact h.1

/-! ## Cleaning -/

def IsGraphic (c : Char) : Prop := isControl c = false ∧ c ≠ ' '

theorem IsGraphic.lt_toNat {c : Char} (h : IsGraphic c) : 0x20 < c.toNat := by
  obtain ⟨hcontrol, hspace⟩ := h
  have hne : c.toNat ≠ 0x20 := by
    intro hcode
    have hc := Char.ofNat_toNat c
    rw [hcode] at hc
    exact hspace hc.symm
  simp only [isControl, Bool.or_eq_false_iff, decide_eq_false_iff_not] at hcontrol
  omega

theorem IsGraphic.ne_of_toNat_le {c d : Char} (h : IsGraphic c) (hd : d.toNat ≤ 0x20) : c ≠ d := by
  rintro rfl
  exact absurd h.lt_toNat (by omega)

theorem dropWhile_of_graphic {cs : List Char} (h : ∀ c ∈ cs, IsGraphic c) :
    cs.dropWhile (fun c => decide (c.toNat ≤ 0x20)) = cs := by
  cases cs with
  | nil => rfl
  | cons c cs =>
    have hc := (h c List.mem_cons_self).lt_toNat
    exact List.dropWhile_cons_of_neg (by simpa using hc)

theorem filter_of_graphic {cs : List Char} (h : ∀ c ∈ cs, IsGraphic c) :
    cs.filter (fun c => c != '\t' && c != '\n' && c != '\r') = cs := by
  rw [List.filter_eq_self]
  intro c hc
  have hgraphic := h c hc
  simp [hgraphic.ne_of_toNat_le (d := '\t') (by decide),
    hgraphic.ne_of_toNat_le (d := '\n') (by decide),
    hgraphic.ne_of_toNat_le (d := '\r') (by decide)]

theorem exists_clean_append {front : List Char} (hne : front ≠ []) (h : ∀ c ∈ front, IsGraphic c)
    (cs : List Char) : ∃ rest, clean (front ++ cs) = front ++ rest := by
  have hback : ∀ c ∈ front.reverse, IsGraphic c := fun c hc => h c (List.mem_reverse.1 hc)
  have hfront : (front ++ cs).dropWhile (fun c => decide (c.toNat ≤ 0x20)) = front ++ cs := by
    obtain ⟨c, front, rfl⟩ := List.exists_cons_of_ne_nil hne
    have hc := (h c List.mem_cons_self).lt_toNat
    exact List.dropWhile_cons_of_neg (by simpa using hc)
  obtain ⟨middle, hmiddle⟩ : ∃ middle, (cs.reverse ++ front.reverse).dropWhile
      (fun c => decide (c.toNat ≤ 0x20)) = middle ++ front.reverse := by
    rw [List.dropWhile_append, dropWhile_of_graphic hback]
    split
    · exact ⟨[], rfl⟩
    · exact ⟨_, rfl⟩
  refine ⟨middle.reverse.filter fun c => c != '\t' && c != '\n' && c != '\r', ?_⟩
  rw [clean, hfront, List.reverse_append, hmiddle, List.reverse_append, List.reverse_reverse,
    List.filter_append, filter_of_graphic h]

theorem clean_eq_self {cs : List Char} (h : ∀ c ∈ cs, IsGraphic c) : clean cs = cs := by
  have hback : ∀ c ∈ cs.reverse, IsGraphic c := fun c hc => h c (List.mem_reverse.1 hc)
  rw [clean, dropWhile_of_graphic h, dropWhile_of_graphic hback, List.reverse_reverse,
    filter_of_graphic h]

end RowMapper.Url
