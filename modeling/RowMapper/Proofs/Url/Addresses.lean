import Mathlib.Algebra.Group.Nat.Defs
import RowMapper.Url.Ipv6
import RowMapper.Proofs.Alias.Occurrence
import RowMapper.Proofs.Text.Pieces

/-! # Addresses read back

An address that is written is read as the same eight groups, with zeros left out or not. The text
of a group is one to four hexadecimal digits, so no two colons meet except where zeros are left
out.
-/

namespace RowMapper.Url

open Text

structure IsAddress (groups : Ipv6) : Prop where
  length : groups.length = 8
  lt_of_mem : ∀ g ∈ groups, g < 65536

/-! ## What is read is an address -/

theorem hexValue_lt {c : Char} {n : Nat} (h : hexValue c = some n) : n < 16 := by
  unfold hexValue at h
  split at h
  · next hdigit =>
    have hrange : 48 ≤ c.toNat ∧ c.toNat ≤ 57 := Char.isDigit_iff_toNat.1 hdigit
    cases h
    omega
  · split at h
    · next hletter =>
      have hrange : c.toNat ≤ 'f'.toNat := hletter.2
      cases h
      simp only [Char.reduceToNat] at hrange
      omega
    · split at h
      · next hletter =>
        have hrange : c.toNat ≤ 'F'.toNat := hletter.2
        cases h
        simp only [Char.reduceToNat] at hrange
        omega
      · cases h

theorem lt_of_hexNumber {cs : List Char} {start n : Nat}
    (h : cs.foldlM (fun n c => (hexValue c).map fun d => n * 16 + d) start = some n) :
    n < (start + 1) * 16 ^ cs.length := by
  induction cs generalizing start with
  | nil =>
    cases h
    simp
  | cons c cs ih =>
    rw [List.foldlM_cons] at h
    obtain ⟨m, hm, h⟩ := Option.bind_eq_some_iff.1 h
    obtain ⟨d, hd, rfl⟩ := Option.map_eq_some_iff.1 hm
    have hdigit := hexValue_lt hd
    have hrest := ih h
    calc n < (start * 16 + d + 1) * 16 ^ cs.length := hrest
      _ ≤ ((start + 1) * 16) * 16 ^ cs.length := Nat.mul_le_mul_right _ (by omega)
      _ = (start + 1) * 16 ^ (c :: cs).length := by
        rw [List.length_cons, Nat.pow_succ, Nat.mul_assoc, Nat.mul_comm 16]

theorem lt_of_readGroup {cs : List Char} {g : Nat} (h : readGroup cs = some g) : g < 65536 := by
  unfold readGroup at h
  split at h
  · cases h
  · next hlength =>
    have hfour : cs.length ≤ 4 := by
      simp only [Bool.or_eq_true, not_or, decide_eq_true_eq] at hlength
      omega
    have hbound := lt_of_hexNumber h
    calc g < (0 + 1) * 16 ^ cs.length := hbound
      _ ≤ 1 * 16 ^ 4 := Nat.mul_le_mul_left _ (Nat.pow_le_pow_right (by omega) hfour)

theorem lt_of_mem_mapM {f : List Char → Option Nat} {bound : Nat}
    (hf : ∀ {cs g}, f cs = some g → g < bound) {pieces : List (List Char)} {gs : List Nat}
    (h : pieces.mapM f = some gs) : ∀ g ∈ gs, g < bound := by
  induction pieces generalizing gs with
  | nil =>
    cases h
    simp
  | cons piece rest ih =>
    rw [List.mapM_cons] at h
    obtain ⟨g, hg, h⟩ := Option.bind_eq_some_iff.1 h
    obtain ⟨gs', hgs, h⟩ := Option.bind_eq_some_iff.1 h
    cases h
    exact List.forall_mem_cons.2 ⟨hf hg, ih hgs⟩

theorem lt_of_readOctet {cs : List Char} {n : Nat} (h : readOctet cs = some n) : n < 256 := by
  unfold readOctet at h
  split at h
  · cases h
  · split at h
    · cases h
    · dsimp only at h
      split at h
      · cases h
        omega
      · cases h

theorem lt_of_readDotted {cs : List Char} {gs : List Nat} (h : readDotted cs = some gs) :
    ∀ g ∈ gs, g < 65536 := by
  unfold readDotted at h
  split at h
  · next a b c d hoctets =>
    have hlt := lt_of_mem_mapM lt_of_readOctet hoctets
    simp only [List.forall_mem_cons, List.not_mem_nil, false_implies, implies_true, and_true]
      at hlt
    cases h
    simp only [List.forall_mem_cons, List.not_mem_nil, false_implies, implies_true, and_true]
    omega
  · cases h

theorem lt_of_readGroups {dotted : Bool} {cs : List Char} {gs : List Nat}
    (h : readGroups dotted cs = some gs) : ∀ g ∈ gs, g < 65536 := by
  unfold readGroups at h
  split at h
  · cases h
    simp
  · dsimp only at h
    split at h
    · obtain ⟨front, hfront, h⟩ := Option.bind_eq_some_iff.1 h
      obtain ⟨back, hback, h⟩ := Option.bind_eq_some_iff.1 h
      cases h
      intro g hg
      rcases List.mem_append.1 hg with hg | hg
      · exact lt_of_mem_mapM lt_of_readGroup hfront g hg
      · exact lt_of_readDotted hback g hg
    · exact lt_of_mem_mapM lt_of_readGroup h

theorem isAddress_of_readIpv6 {cs : List Char} {groups : Ipv6} (h : readIpv6 cs = some groups) :
    IsAddress groups := by
  unfold readIpv6 at h
  split at h
  · obtain ⟨hread, hlength⟩ := Option.filter_eq_some_iff.1 h
    exact ⟨by simpa using hlength, lt_of_readGroups hread⟩
  · obtain ⟨front, hfront, h⟩ := Option.bind_eq_some_iff.1 h
    obtain ⟨back, hback, h⟩ := Option.bind_eq_some_iff.1 h
    dsimp only at h
    split at h
    · cases h
    · next hcount =>
      cases h
      constructor
      · simp only [List.length_append, List.length_replicate]
        omega
      · intro g hg
        simp only [List.mem_append, List.mem_replicate] at hg
        rcases hg with (hg | ⟨-, rfl⟩) | hg
        · exact lt_of_readGroups hfront g hg
        · decide
        · exact lt_of_readGroups hback g hg

/-! ## Groups -/

theorem hexValue_digitChar : ∀ n < 16, hexValue n.digitChar = some n := by decide

theorem exists_digitChar {g : Nat} {c : Char} (h : c ∈ Nat.toDigits 16 g) :
    ∃ n < 16, c = n.digitChar := by
  induction g using Nat.strongRecOn with
  | ind g ih =>
    rw [Nat.toDigits_eq_if (by decide)] at h
    split at h
    · next hsmall => exact ⟨g, hsmall, List.mem_singleton.1 h⟩
    · rcases List.mem_append.1 h with h | h
      · exact ih (g / 16) (by omega) h
      · exact ⟨g % 16, Nat.mod_lt g (by decide), List.mem_singleton.1 h⟩

theorem digit_ne {g : Nat} {c : Char} (h : c ∈ Nat.toDigits 16 g) :
    c ≠ ':' ∧ c ≠ '.' ∧ c ≠ '[' ∧ c ≠ ']' := by
  obtain ⟨n, hn, rfl⟩ := exists_digitChar h
  have hdigits : ∀ n < 16, n.digitChar ≠ ':' ∧ n.digitChar ≠ '.' ∧ n.digitChar ≠ '[' ∧
      n.digitChar ≠ ']' := by
    decide
  exact hdigits n hn

theorem hexNumber_toDigits (g : Nat) : hexNumber (Nat.toDigits 16 g) = some g := by
  induction g using Nat.strongRecOn with
  | ind g ih =>
    rw [Nat.toDigits_eq_if (by decide)]
    split
    · next hsmall =>
      rw [hexNumber, List.foldlM_cons, hexValue_digitChar g hsmall]
      simp
    · have hfront := ih (g / 16) (by omega)
      rw [hexNumber] at hfront
      rw [hexNumber, List.foldlM_append, hfront]
      have hdigit := hexValue_digitChar (g % 16) (Nat.mod_lt g (by decide))
      simp only [Option.bind_eq_bind, Option.bind_some, List.foldlM_cons, List.foldlM_nil, hdigit,
        Option.map_some]
      exact congrArg some (by omega)

theorem readGroup_toDigits {g : Nat} (h : g < 65536) :
    readGroup (Nat.toDigits 16 g) = some g := by
  have hlength : (Nat.toDigits 16 g).length ≤ 4 :=
    (Nat.length_toDigits_le_iff (by decide) (by decide)).2 h
  have hshape : ((Nat.toDigits 16 g).isEmpty || decide (4 < (Nat.toDigits 16 g).length)) =
      false := by
    simp
    omega
  rw [readGroup, hshape, if_neg Bool.false_ne_true, hexNumber_toDigits]

/-! ## Groups between colons -/

theorem groupsText_eq (groups : List Nat) :
    groupsText groups = [':'].intercalate (groups.map (Nat.toDigits 16)) := by
  rw [groupsText, String.toList_intercalate, List.map_map]
  simp [Function.comp_def]

theorem not_mem_of_mem_map_toDigits {groups : List Nat} {piece : List Char}
    (h : piece ∈ groups.map (Nat.toDigits 16)) : ':' ∉ piece ∧ '.' ∉ piece ∧ piece ≠ [] := by
  obtain ⟨g, -, rfl⟩ := List.mem_map.1 h
  exact ⟨fun hmem => (digit_ne hmem).1 rfl, fun hmem => (digit_ne hmem).2.1 rfl,
    Nat.toDigits_ne_nil⟩

theorem mapM_readGroup {groups : List Nat} (h : ∀ g ∈ groups, g < 65536) :
    (groups.map (Nat.toDigits 16)).mapM readGroup = some groups := by
  induction groups with
  | nil => rfl
  | cons g groups ih =>
    rw [List.forall_mem_cons] at h
    rw [List.map_cons, List.mapM_cons, readGroup_toDigits h.1, ih h.2]
    rfl

/-- Written groups are read, whether a dotted piece may be among them or not. -/
theorem readGroups_groupsText (dotted : Bool) {groups : List Nat} (h : ∀ g ∈ groups, g < 65536) :
    readGroups dotted (groupsText groups) = some groups := by
  cases groups with
  | nil => rfl
  | cons g rest =>
    have hpieces : splitChars ':' (groupsText (g :: rest)) = (g :: rest).map (Nat.toDigits 16) := by
      rw [groupsText_eq]
      exact splitChars_intercalate (by simp) fun piece hpiece =>
        (not_mem_of_mem_map_toDigits hpiece).1
    have hne : (groupsText (g :: rest)).isEmpty = false := by
      cases htext : groupsText (g :: rest) with
      | nil =>
        rw [htext, splitChars] at hpieces
        exact absurd (List.cons.inj hpieces).1.symm Nat.toDigits_ne_nil
      | cons c cs => rfl
    have hlast : (((g :: rest).map (Nat.toDigits 16)).getLast?.getD []).contains '.' = false := by
      cases hget : ((g :: rest).map (Nat.toDigits 16)).getLast? with
      | none => rfl
      | some last =>
        have hmem := List.mem_of_getLast? hget
        simpa using (not_mem_of_mem_map_toDigits hmem).2.1
    rw [readGroups, hne, if_neg Bool.false_ne_true]
    dsimp only
    rw [hpieces, hlast, Bool.and_false, if_neg Bool.false_ne_true, mapM_readGroup h]

/-! ## Two colons in a row -/

/-- No two colons meet between pieces that are not empty, so they are looked for behind. -/
theorem breakPhrase_intercalate {pieces : List (List Char)}
    (h : ∀ piece ∈ pieces, ':' ∉ piece ∧ piece ≠ []) (rest : List Char) :
    breakPhrase [':', ':'] ([':'].intercalate pieces ++ rest) =
      (breakPhrase [':', ':'] rest).map fun (before, after) =>
        ([':'].intercalate pieces ++ before, after) := by
  induction pieces with
  | nil => simp [List.intercalate]
  | cons piece pieces ih =>
    rw [List.forall_mem_cons] at h
    have hskip : ∀ y ∈ piece, y ≠ ':' := fun y hy hcolon => h.1.1 (hcolon ▸ hy)
    cases pieces with
    | nil => rw [List.intercalate_singleton, Sql.breakPhrase_skip hskip]
    | cons next pieces =>
      obtain ⟨x, xs, hnext⟩ := List.exists_cons_of_ne_nil (h.2 next List.mem_cons_self).2
      have hx : x ≠ ':' := by
        rintro rfl
        exact (h.2 next List.mem_cons_self).1 (hnext ▸ List.mem_cons_self)
      obtain ⟨ys, hys⟩ : ∃ ys, [':'].intercalate (next :: pieces) = x :: ys := by
        cases pieces with
        | nil => exact ⟨xs, by rw [List.intercalate_singleton, hnext]⟩
        | cons _ _ => exact ⟨_, by rw [List.intercalate_cons_cons, hnext]; rfl⟩
      have hprefix : List.isPrefixOf [':', ':']
          (':' :: ([':'].intercalate (next :: pieces) ++ rest)) = false := by
        rw [hys]
        simp [List.isPrefixOf, hx.symm]
      rw [List.intercalate_cons_cons, List.append_assoc, List.append_assoc,
        Sql.breakPhrase_skip hskip, List.singleton_append, breakPhrase, hprefix,
        if_neg Bool.false_ne_true, ih h.2]
      simp [Option.map_map, Function.comp_def]

theorem breakPhrase_groupsText (groups : List Nat) (rest : List Char) :
    breakPhrase [':', ':'] (groupsText groups ++ rest) =
      (breakPhrase [':', ':'] rest).map fun (before, after) =>
        (groupsText groups ++ before, after) := by
  rw [groupsText_eq]
  exact breakPhrase_intercalate (fun piece hpiece =>
    ⟨(not_mem_of_mem_map_toDigits hpiece).1, (not_mem_of_mem_map_toDigits hpiece).2.2⟩) rest

/-! ## Zeros that are left out -/

/-- Where a run is told to start there are that many zeros. -/
theorem exists_longestZeroRun (position : Nat) (groups : List Nat)
    (h : 0 < (longestZeroRun position groups).2) : ∃ before after,
      groups = before ++ List.replicate (longestZeroRun position groups).2 0 ++ after ∧
        (longestZeroRun position groups).1 = position + before.length := by
  induction groups generalizing position with
  | nil => exact absurd h (by simp [longestZeroRun])
  | cons g rest ih =>
    rw [longestZeroRun] at h ⊢
    dsimp only at h ⊢
    by_cases hlonger : (longestZeroRun (position + 1) rest).2 ≤ zeroRun (g :: rest)
    · rw [if_pos hlonger] at h ⊢
      refine ⟨[], (g :: rest).dropWhile (· == 0), ?_, rfl⟩
      have hzeros : (g :: rest).takeWhile (· == 0) = List.replicate (zeroRun (g :: rest)) 0 := by
        rw [List.eq_replicate_iff]
        exact ⟨rfl, fun x hx => by simpa using List.mem_takeWhile_imp hx⟩
      rw [List.nil_append, ← hzeros, List.takeWhile_append_dropWhile]
    · rw [if_neg hlonger] at h ⊢
      obtain ⟨before, after, hrest, hstart⟩ := ih (position + 1) h
      refine ⟨g :: before, after, ?_, ?_⟩
      · rw [List.cons_append, List.cons_append, ← hrest]
      · rw [hstart, List.length_cons]
        omega

theorem readIpv6_ipv6Text {groups : Ipv6} (h : IsAddress groups) :
    readIpv6 (ipv6Text groups) = some groups := by
  rw [ipv6Text]
  dsimp only
  split
  · have hnone := breakPhrase_groupsText groups []
    rw [List.append_nil] at hnone
    rw [readIpv6, hnone, readGroups_groupsText true h.lt_of_mem]
    simp [breakPhrase, h.length]
  · next hlong =>
    obtain ⟨before, after, hgroups, hstart⟩ := exists_longestZeroRun 0 groups (by omega)
    generalize (longestZeroRun 0 groups).2 = length at hgroups hlong ⊢
    rw [hstart, Nat.zero_add]
    have htake : groups.take before.length = before := by
      rw [hgroups, List.append_assoc, List.take_left]
    have hdrop : groups.drop (before.length + length) = after := by
      rw [hgroups, List.drop_left' (by simp)]
    have hcount := h.length
    rw [hgroups, List.length_append, List.length_append, List.length_replicate] at hcount
    have hlt := h.lt_of_mem
    rw [hgroups] at hlt
    have hbefore : ∀ g ∈ before, g < 65536 := fun g hg => hlt g (by simp [hg])
    have hafter : ∀ g ∈ after, g < 65536 := fun g hg => hlt g (by simp [hg])
    have hbreak : breakPhrase [':', ':'] (groupsText before ++ "::".toList ++ groupsText after) =
        some (groupsText before, groupsText after) := by
      rw [List.append_assoc, breakPhrase_groupsText]
      simp [breakPhrase]
    rw [htake, hdrop, readIpv6, hbreak]
    dsimp only
    rw [readGroups_groupsText false hbefore, readGroups_groupsText true hafter]
    have hsmall : ¬7 < before.length + after.length := by omega
    have hzeros : 8 - (before.length + after.length) = length := by omega
    simp [hsmall, hzeros, hgroups]

end RowMapper.Url
