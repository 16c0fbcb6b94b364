import RowMapper.Proofs.Alias.Occurrence
import RowMapper.Proofs.Text.Pieces

/-! # Where a name is cut from its alias

The offset of the alias is counted in the lower-cased text and cuts the text itself. Names over
some characters are all cut between two characters just when each of these characters keeps its
length in lower case. A base with an alias behind it is split into these two just when the offset
is the end of the base, or beside it over a blank that is trimmed anyway. Besides lengths that
change, a base that ends with ` as` moves the offset: the blank behind it completes the phrase.
-/

namespace RowMapper.Text

/-! ## Bytes of characters -/

theorem utf8Size_eq (c : Char) : c.utf8Size =
    if c.toNat ≤ 0x7F then 1 else if c.toNat ≤ 0x7FF then 2 else if c.toNat ≤ 0xFFFF then 3
    else 4 := by
  unfold Char.utf8Size
  simp only [UInt32.le_iff_toNat_le]
  rfl

theorem two_le_utf8Size {c : Char} (h : 128 ≤ c.toNat) : 2 ≤ c.utf8Size := by
  rw [utf8Size_eq, if_neg (by omega)]
  split
  · decide
  · split <;> decide

theorem three_le_utf8Size {c : Char} (h : 0x800 ≤ c.toNat) : 3 ≤ c.utf8Size := by
  rw [utf8Size_eq, if_neg (by omega), if_neg (by omega)]
  split <;> decide

theorem utf8Size_le_three {c : Char} (h : c.toNat < 0x10000) : c.utf8Size ≤ 3 := by
  rw [utf8Size_eq, if_pos (show c.toNat ≤ 0xFFFF by omega)]
  split
  · decide
  · split <;> decide

theorem byteLength_lowerChar_of_ascii {c : Char} (h : c.toNat < 128) :
    byteLength (lowerChar c) = c.utf8Size := by
  refine forall_ascii (P := fun c => byteLength (lowerChar c) = c.utf8Size) ?_ h
  decide +kernel

theorem byteLength_pos {cs : List Char} (h : cs ≠ []) : 0 < byteLength cs := by
  cases cs with
  | nil => exact absurd rfl h
  | cons c cs =>
    have := c.utf8Size_pos
    rw [byteLength]
    omega

/-- No lower-case form of a character below 0x800 has four bytes. -/
theorem shiftIn_lowerRuns_lt {n m : Nat} (hn : n < 0x800)
    (h : shiftIn CaseTable.lowerRuns n = some m) : m < 0x10000 := by
  have htable : ∀ run ∈ CaseTable.lowerRuns, run.1 < 0x800 →
      (run.2.1 : Int) + run.2.2.2 < 0x10000 := by
    decide +kernel
  obtain ⟨run, hmem, hfirst, hlast, rfl⟩ := exists_run_of_shiftIn h
  have := htable run hmem (by omega)
  omega

theorem byteLength_singleton (c : Char) : byteLength [c] = c.utf8Size := rfl

/-- Outside ASCII a character has less than twice its length in lower case. -/
theorem byteLength_lowerChar_lt {c : Char} (h : 128 ≤ c.toNat) :
    byteLength (lowerChar c) < 2 * c.utf8Size := by
  have htwo := two_le_utf8Size h
  have hascii : ¬c.toNat < 128 := by omega
  unfold lowerChar
  rw [if_neg hascii]
  split
  · have hdotted : byteLength ['i', Char.ofNat 0x307] = 3 := by decide
    omega
  · split
    · next m hm =>
      rw [byteLength_singleton]
      by_cases hshort : c.toNat < 0x800
      · have hm := shiftIn_lowerRuns_lt hshort hm
        have hsmall : (Char.ofNat m).toNat < 0x10000 := by
          rcases toNat_ofNat m with h | h <;> omega
        have := utf8Size_le_three hsmall
        omega
      · have := (Char.ofNat m).utf8Size_le_four
        have := three_le_utf8Size (c := c) (by omega)
        omega
    · rw [byteLength_singleton]
      omega

end RowMapper.Text

namespace RowMapper.Sql

open Text

variable {c : Char} {cs before after xs ys : List Char} {n : Nat}

/-! ## Cuts between characters -/

/-- A text can be cut after so many bytes: they are the bytes of its first characters. -/
def IsBoundary (cs : List Char) (n : Nat) : Prop :=
  ∃ before after, cs = before ++ after ∧ byteLength before = n

theorem cutAtByte_append (before after : List Char) :
    cutAtByte (byteLength before) (before ++ after) = some (before, after) := by
  induction before with
  | nil => cases after <;> rfl
  | cons c cs ih =>
    have hsize := c.utf8Size_pos
    obtain ⟨n, hn⟩ : ∃ n, byteLength (c :: cs) = n + 1 :=
      Nat.exists_eq_succ_of_ne_zero (by rw [byteLength]; omega)
    have hrest : n + 1 - c.utf8Size = byteLength cs := by
      rw [byteLength] at hn
      omega
    have hfits : c.utf8Size ≤ n + 1 := by
      rw [byteLength] at hn
      omega
    rw [hn, List.cons_append, cutAtByte, if_pos hfits, hrest, ih]
    rfl

theorem cutAtByte_eq_some_iff : cutAtByte n cs = some (before, after) ↔
    cs = before ++ after ∧ byteLength before = n := by
  constructor
  · exact cutAtByte_eq_some
  · rintro ⟨rfl, rfl⟩
    exact cutAtByte_append before after

theorem isBoundary_iff : IsBoundary cs n ↔ (cutAtByte n cs).isSome = true := by
  simp [IsBoundary, Option.isSome_iff_exists, cutAtByte_eq_some_iff]

instance (cs : List Char) (n : Nat) : Decidable (IsBoundary cs n) :=
  decidable_of_iff _ isBoundary_iff.symm

theorem isBoundary_cons : IsBoundary (c :: cs) n ↔
    n = 0 ∨ c.utf8Size ≤ n ∧ IsBoundary cs (n - c.utf8Size) := by
  constructor
  · rintro ⟨before, after, hcs, rfl⟩
    cases before with
    | nil => exact .inl rfl
    | cons x before =>
      obtain ⟨rfl, rfl⟩ := List.cons.inj hcs
      exact .inr ⟨Nat.le_add_right .., before, after, rfl, (Nat.add_sub_cancel_left ..).symm⟩
  · rintro (rfl | ⟨hle, before, after, rfl, hbefore⟩)
    · exact ⟨[], _, rfl, rfl⟩
    · exact ⟨c :: before, after, rfl, by rw [byteLength, hbefore]; omega⟩

theorem isBoundary_nil : IsBoundary [] n ↔ n = 0 := by
  constructor
  · rintro ⟨before, after, h, rfl⟩
    obtain ⟨rfl, rfl⟩ := List.append_eq_nil_iff.1 h.symm
    rfl
  · rintro rfl
    exact ⟨[], [], rfl, rfl⟩

/-- The alias of a name, if it has one, is cut off between characters, and so is its phrase. -/
def CutsCleanly (name : String) : Prop :=
  ∀ n ∈ aliasOffset? name, IsBoundary name.toList n ∧ IsBoundary name.toList (n + 4)

instance (name : String) : Decidable (CutsCleanly name) :=
  Option.decidableForallMem (aliasOffset? name)

/-! ## Where the phrase is found -/

/-- Only ASCII characters are lower-cased to the characters of the phrase. -/
theorem byteLength_of_map_toLower {w phrase : List Char} (hphrase : phrase ⊆ aliasPhrase)
    (h : w.map Char.toLower = phrase) : byteLength w = phrase.length := by
  induction w generalizing phrase with
  | nil =>
    subst h
    rfl
  | cons c w ih =>
    subst h
    have hc : c.toNat < 128 := by
      by_contra hlarge
      have hmem := hphrase (List.mem_cons_self : c.toLower ∈ (c :: w).map Char.toLower)
      rw [toLower_of_not_ascii (by omega)] at hmem
      exact not_mem_aliasPhrase (by omega) hmem
    have hrest := ih (fun x hx => hphrase (List.mem_cons_of_mem _ hx)) rfl
    rw [byteLength, hrest, utf8Size_eq, if_pos (by omega), List.map_cons, List.length_cons,
      Nat.add_comm]

/-- What is found is the phrase in some case, at the length of what is lower-cased before it. -/
theorem aliasOffset?_eq_some {name : String} (h : aliasOffset? name = some n) :
    ∃ before w after, name.toList = before ++ w ++ after ∧ w.map Char.toLower = aliasPhrase ∧
      n = lowerLength before := by
  rw [aliasOffset?_eq] at h
  obtain ⟨⟨b, a⟩, hbreak, rfl⟩ := Option.map_eq_some_iff.1 h
  obtain ⟨before, rest, hname, rfl, hrest⟩ :=
    List.map_eq_append_iff.1 ((breakPhrase_eq_some hbreak).trans (List.append_assoc ..))
  obtain ⟨w, after, rfl, hw, -⟩ := List.map_eq_append_iff.1 hrest
  refine ⟨before, w, after, by rw [hname, List.append_assoc], hw, ?_⟩
  rw [hname, List.length_map, List.take_left' rfl]

theorem lowerLength_eq_byteLength (h : ∀ c ∈ cs, byteLength (lowerChar c) = c.utf8Size) :
    lowerLength cs = byteLength cs := by
  induction cs with
  | nil => rfl
  | cons c cs ih =>
    rw [lowerLength, byteLength, h c List.mem_cons_self,
      ih fun x hx => h x (List.mem_cons_of_mem c hx)]

/-- Characters that keep their lengths are cut cleanly. -/
theorem cutsCleanly_of_lengths {name : String}
    (h : ∀ c ∈ name.toList, byteLength (lowerChar c) = c.utf8Size) : CutsCleanly name := by
  intro n hn
  obtain ⟨before, w, after, hname, hw, rfl⟩ := aliasOffset?_eq_some hn
  have hbefore : lowerLength before = byteLength before :=
    lowerLength_eq_byteLength fun c hc => h c (by simp [hname, hc])
  have hfour : byteLength w = 4 := byteLength_of_map_toLower (List.Subset.refl _) hw
  rw [hname, hbefore]
  refine ⟨⟨before, w ++ after, List.append_assoc .., rfl⟩, ⟨before ++ w, after, rfl, ?_⟩⟩
  rw [byteLength_append, hfour]

/-- A text that ends with the phrase but for its last blank. -/
def endsOpen (cs : List Char) : Bool := [' ', 'a', 's'].isSuffixOf (cs.map Char.toLower)

/-- What of a base is before the phrase that is found in it with an alias behind. A base may end
with ` as`, which the blank behind it completes. -/
def foundBase (base : List Char) : List Char :=
  if endsOpen base then base.take (base.length - 3) else base

/-- Where a text has no phrase of its own, one behind it is found there, or three characters before
when the text ends with ` as`: the phrase can overlap itself in a blank only. -/
theorem breakPhrase_append {x : List Char} (h : ¬aliasPhrase <:+: x) (y : List Char) :
    (breakPhrase aliasPhrase (x ++ aliasPhrase ++ y)).map (fun parts => parts.1.length) =
      some (if [' ', 'a', 's'].isSuffixOf x then x.length - 3 else x.length) := by
  induction x with
  | nil => rfl
  | cons c x ih =>
    have hx : ¬aliasPhrase <:+: x := fun hx => h (hx.trans (List.suffix_cons c x).isInfix)
    rw [List.cons_append, List.cons_append, breakPhrase]
    cases hbegins : aliasPhrase.isPrefixOf (c :: (x ++ aliasPhrase ++ y)) with
    | true =>
      -- The phrase is not within the text, so that it begins with the last characters of it.
      have hopen : c :: x = [' ', 'a', 's'] := by
        rcases x with _ | ⟨a, _ | ⟨b, _ | ⟨e, x⟩⟩⟩
        · simp [aliasPhrase, List.isPrefixOf] at hbegins
        · simp [aliasPhrase, List.isPrefixOf] at hbegins
        · obtain ⟨rfl, rfl, rfl⟩ : ' ' = c ∧ 'a' = a ∧ 's' = b := by
            simpa [aliasPhrase, List.isPrefixOf] using hbegins
          rfl
        · obtain ⟨rfl, rfl, rfl, rfl⟩ : ' ' = c ∧ 'a' = a ∧ 's' = b ∧ ' ' = e := by
            simpa [aliasPhrase, List.isPrefixOf] using hbegins
          exact absurd (List.IsPrefix.isInfix ⟨x, rfl⟩) h
      rw [if_pos rfl, hopen]
      rfl
    | false =>
      have hclosed : [' ', 'a', 's'].isSuffixOf (c :: x) = [' ', 'a', 's'].isSuffixOf x := by
        rw [Bool.eq_iff_iff, List.isSuffixOf_iff_suffix, List.isSuffixOf_iff_suffix,
          List.suffix_cons_iff]
        refine ⟨fun hor => hor.resolve_left fun heq => ?_, .inr⟩
        cases heq
        cases hbegins
      have hlater := congrArg (Option.map (· + 1)) (ih hx)
      rw [Option.map_map] at hlater
      rw [if_neg Bool.false_ne_true, hclosed, Option.map_map]
      refine hlater.trans ?_
      split
      · next hopen =>
        have hlength := (List.isSuffixOf_iff_suffix.1 hopen).length_le
        have hthree : 3 ≤ x.length := hlength
        have hcount : x.length - 3 + 1 = x.length + 1 - 3 := by omega
        exact congrArg some hcount
      · rfl

theorem aliasOffset?_append {name : String} {base w asName : List Char} (hbase : ¬HasAlias base)
    (hw : w.map Char.toLower = aliasPhrase) (hname : name.toList = base ++ w ++ asName) :
    aliasOffset? name = some (lowerLength (foundBase base)) := by
  have hfound := breakPhrase_append hbase (asName.map Char.toLower)
  rw [← hw, ← List.map_append, ← List.map_append, ← hname, List.length_map] at hfound
  have htake {n : Nat} (hn : n ≤ base.length) : name.toList.take n = base.take n := by
    rw [hname, List.append_assoc, List.take_append_of_le_length hn]
  have hoffset := congrArg (Option.map fun n => lowerLength (name.toList.take n)) hfound
  rw [Option.map_map] at hoffset
  rw [aliasOffset?_eq, ← hw]
  refine hoffset.trans ?_
  unfold foundBase endsOpen
  split
  · rw [Option.map_some, htake (by omega)]
  · rw [Option.map_some, htake (Nat.le_refl _), List.take_length]

/-- Between two characters of another length in lower case the phrase is cut in the wrong place. -/
theorem not_cutsCleanly (h : byteLength (lowerChar c) ≠ c.utf8Size) :
    ¬CutsCleanly (String.ofList ([c] ++ aliasPhrase ++ [c])) := by
  have hlarge : 128 ≤ c.toNat := by
    by_contra hascii
    exact h (byteLength_lowerChar_of_ascii (by omega))
  have hc : ¬HasAlias [c] := fun hinfix => absurd hinfix.length_le (by simp [aliasPhrase])
  have hopen : foundBase [c] = [c] := by
    simp [foundBase, endsOpen, List.isSuffixOf, List.isPrefixOf]
  have hoffset := aliasOffset?_append hc rfl (String.toList_ofList (l := [c] ++ aliasPhrase ++ [c]))
  rw [hopen] at hoffset
  intro hclean
  obtain ⟨hstart, hend⟩ := hclean _ hoffset
  have htwo := two_le_utf8Size hlarge
  have hfour := c.utf8Size_le_four
  have hlt := byteLength_lowerChar_lt hlarge
  have hpos : 0 < byteLength (lowerChar c) := byteLength_pos (lowerChar_ne_nil c)
  have hspace : ' '.utf8Size = 1 := by decide
  have ha : 'a'.utf8Size = 1 := by decide
  have hs : 's'.utf8Size = 1 := by decide
  simp only [String.toList_ofList, aliasPhrase, List.cons_append, List.nil_append, isBoundary_cons,
    isBoundary_nil, lowerLength, hspace, ha, hs] at hstart hend
  omega

/-- Base and alias are what is before the offset and what is four bytes behind it. -/
theorem splitAlias_eq_some_iff {name : String} {b a : String} (h : aliasOffset? name = some n) :
    splitAlias name = some (b, a) ↔ ∃ before phrase after,
      name.toList = before ++ phrase ++ after ∧ byteLength before = n ∧ byteLength phrase = 4 ∧
        trimChars before ≠ [] ∧ trimChars after ≠ [] ∧
        b = String.ofList (trimChars before) ∧ a = String.ofList (trimChars after) := by
  constructor
  · intro hsplit
    obtain ⟨offset, hoffset, hfirst⟩ := Option.bind_eq_some_iff.1 hsplit
    obtain rfl : n = offset := Option.some.inj (h.symm.trans hoffset)
    obtain ⟨⟨before, rest⟩, hbefore, hsecond⟩ := Option.bind_eq_some_iff.1 hfirst
    obtain ⟨⟨phrase, after⟩, hafter, htrim⟩ := Option.bind_eq_some_iff.1 hsecond
    obtain ⟨hname, hstart⟩ := cutAtByte_eq_some hbefore
    obtain ⟨hrest, hfour⟩ := cutAtByte_eq_some hafter
    dsimp only at htrim
    split at htrim
    · cases htrim
    · next hne =>
      rw [Bool.or_eq_true, not_or, List.isEmpty_iff, List.isEmpty_iff] at hne
      obtain ⟨rfl, rfl⟩ := Prod.mk.inj (Option.some.inj htrim)
      exact ⟨before, phrase, after, by rw [hname, hrest, List.append_assoc], hstart, hfour, hne.1,
        hne.2, rfl, rfl⟩
  · rintro ⟨before, phrase, after, hname, hstart, hfour, hbefore, hafter, rfl, rfl⟩
    have hcut : cutAtByte n name.toList = some (before, phrase ++ after) :=
      cutAtByte_eq_some_iff.2 ⟨by rw [hname, List.append_assoc], hstart⟩
    have hcut' : cutAtByte 4 (phrase ++ after) = some (phrase, after) :=
      cutAtByte_eq_some_iff.2 ⟨rfl, hfour⟩
    have hne : ¬((trimChars before).isEmpty || (trimChars after).isEmpty) = true := by
      simp [hbefore, hafter]
    simp only [splitAlias, h, hcut, hcut', Option.bind_eq_bind, Option.bind_some, if_neg hne]

/-! ## What is trimmed -/

def ink (cs : List Char) : List Char := cs.filter fun c => !isBlank c

theorem ink_append (xs ys : List Char) : ink (xs ++ ys) = ink xs ++ ink ys :=
  List.filter_append ..

theorem ink_cons_of_blank (h : isBlank c = true) (cs : List Char) : ink (c :: cs) = ink cs := by
  simp [ink, h]

theorem ink_cons_of_not_blank (h : isBlank c = false) (cs : List Char) :
    ink (c :: cs) = c :: ink cs := by
  simp [ink, h]

theorem ink_trimChars (cs : List Char) : ink (trimChars cs) = ink cs := by
  have hdrop (cs : List Char) : ink (cs.dropWhile isBlank) = ink cs := by
    induction cs with
    | nil => rfl
    | cons c cs ih =>
      cases hc : isBlank c with
      | true => rw [List.dropWhile_cons_of_pos hc, ih, ink_cons_of_blank hc]
      | false => rw [List.dropWhile_cons_of_neg (by simp [hc])]
  have hreverse (cs : List Char) : ink cs.reverse = (ink cs).reverse := List.filter_reverse ..
  rw [trimChars, hreverse, hdrop, hreverse, List.reverse_reverse, hdrop]

theorem ink_eq_nil_iff : ink cs = [] ↔ ∀ c ∈ cs, isBlank c = true := by
  simp [ink]

/-! ## A base and its alias -/

theorem eq_space_of_toLower (h : c.toLower = ' ') : c = ' ' := by
  by_cases hc : c.toNat < 128
  · exact forall_ascii (P := fun c => c.toLower = ' ' → c = ' ') (by decide +kernel) hc h
  · rwa [toLower_of_not_ascii (by omega)] at h

theorem isBlank_of_toLower {x : Char} (hx : x = 'a' ∨ x = 's') (h : c.toLower = x) :
    isBlank c = false := by
  by_cases hc : c.toNat < 128
  · exact forall_ascii (P := fun c => c.toLower = 'a' ∨ c.toLower = 's' → isBlank c = false)
      (by decide +kernel) hc (h ▸ hx)
  · rw [toLower_of_not_ascii (by omega)] at h
    subst h
    rcases hx with rfl | rfl <;> decide

/-- The phrase in any case has its blanks at the ends and two letters between them. -/
theorem exists_phrase {w : List Char} (hw : w.map Char.toLower = aliasPhrase) :
    ∃ a s, w = [' ', a, s, ' '] ∧ isBlank a = false ∧ isBlank s = false ∧
      a.utf8Size = 1 ∧ s.utf8Size = 1 := by
  rcases w with _ | ⟨x, _ | ⟨a, _ | ⟨s, _ | ⟨y, _ | ⟨z, w⟩⟩⟩⟩⟩
  case cons.cons.cons.cons.nil =>
    simp only [List.map_cons, List.map_nil, aliasPhrase, List.cons.injEq, and_true] at hw
    obtain ⟨hx, ha, hs, hy⟩ := hw
    obtain rfl := eq_space_of_toLower hx
    obtain rfl := eq_space_of_toLower hy
    have hsize {c x : Char} (hx : x ∈ aliasPhrase) (h : c.toLower = x) : c.utf8Size = 1 := by
      have hmap : [c].map Char.toLower = [x] := by rw [List.map_singleton, h]
      exact byteLength_of_map_toLower (by simpa using hx) hmap
    exact ⟨a, s, rfl, isBlank_of_toLower (.inl rfl) ha, isBlank_of_toLower (.inr rfl) hs,
      hsize (by decide) ha, hsize (by decide) hs⟩
  all_goals simp [aliasPhrase] at hw

def IsShortBlank (c : Char) : Prop := isBlank c = true ∧ c.utf8Size = 1

/-- An offset is the end of a base, or it is beside the end, over a blank of the alias or the base. -/
def EndsBase (base asName : List Char) (n : Nat) : Prop :=
  n = byteLength base ∨
  (n = byteLength base + 1 ∧ ∃ c ∈ asName.head?, IsShortBlank c) ∨
  (n + 1 = byteLength base ∧ ∃ c ∈ base.getLast?, IsShortBlank c)

theorem eq_nil_of_byteLength (h : byteLength cs = 0) : cs = [] := by
  by_contra hne
  have := byteLength_pos hne
  omega

theorem exists_cons_of_byteLength (h : byteLength cs = 1) : ∃ c, cs = [c] ∧ c.utf8Size = 1 := by
  cases cs with
  | nil => cases h
  | cons c cs =>
    have hsize := c.utf8Size_pos
    rw [byteLength] at h
    have hrest : byteLength cs = 0 := by omega
    exact ⟨c, by rw [eq_nil_of_byteLength hrest], by omega⟩

/-- Cut behind the base, no letter of the phrase may come before the cut. -/
theorem endsBase_of_behind {a s : Char} {base asName t phrase after : List Char}
    (ha : isBlank a = false) (hsizeA : a.utf8Size = 1) (hsizeS : s.utf8Size = 1)
    (hrest : ' ' :: a :: s :: ' ' :: asName = t ++ (phrase ++ after))
    (hfour : byteLength phrase = 4) (hbefore : ink t = []) (hafter : ink after = ink asName) :
    EndsBase base asName (byteLength base + byteLength t) := by
  have hspace : ' '.utf8Size = 1 := by decide
  rcases t with _ | ⟨t0, _ | ⟨t1, t⟩⟩
  · exact .inl rfl
  · simp only [List.cons_append, List.nil_append, List.cons.injEq] at hrest
    obtain ⟨rfl, hrest⟩ := hrest
    rcases phrase with _ | ⟨p0, _ | ⟨p1, _ | ⟨p2, phrase⟩⟩⟩
    · cases hfour
    · simp_all [byteLength]
    · simp_all [byteLength]
    · simp only [List.cons_append, List.cons.injEq] at hrest
      obtain ⟨rfl, rfl, rfl, rfl⟩ := hrest
      simp only [byteLength, hsizeA, hsizeS, hspace] at hfour
      have hone : byteLength phrase = 1 := by omega
      obtain ⟨c, rfl, hc⟩ := exists_cons_of_byteLength hone
      refine .inr (.inl ⟨rfl, c, rfl, ?_, hc⟩)
      by_contra hink
      rw [List.singleton_append, ink_cons_of_not_blank (by simpa using hink)] at hafter
      simpa using congrArg List.length hafter
  · simp only [List.cons_append, List.cons.injEq] at hrest
    obtain ⟨rfl, rfl, -⟩ := hrest
    rw [ink_cons_of_blank (by decide), ink_cons_of_not_blank ha] at hbefore
    cases hbefore

/-- Cut within the base, no letter of the phrase may come after the four bytes that are cut off. -/
theorem endsBase_of_within {a s : Char} {before asName t phrase after : List Char}
    (hs : isBlank s = false) (hsizeA : a.utf8Size = 1) (hsizeS : s.utf8Size = 1)
    (hrest : phrase ++ after = t ++ (' ' :: a :: s :: ' ' :: asName))
    (hfour : byteLength phrase = 4) (hbefore : ink t = []) (hafter : ink after = ink asName) :
    EndsBase (before ++ t) asName (byteLength before) := by
  have hspace : ' '.utf8Size = 1 := by decide
  have hlast (front : List Char) : after ≠ front ++ s :: ' ' :: asName := by
    rintro rfl
    have hlength := congrArg List.length hafter
    rw [ink_append, ink_cons_of_not_blank hs, ink_cons_of_blank (by decide), List.length_append,
      List.length_cons] at hlength
    omega
  rcases List.append_eq_append_iff.1 hrest with ⟨u, ht, hafter'⟩ | ⟨u, hphrase, hrest⟩
  · exact absurd hafter' (by simpa using hlast (u ++ [' ', a]))
  · rcases u with _ | ⟨u0, _ | ⟨u1, _ | ⟨u2, u⟩⟩⟩
    · exact absurd hrest.symm (hlast [' ', a])
    · obtain ⟨-, hrest⟩ := List.cons.inj hrest
      exact absurd hrest.symm (hlast [a])
    · simp only [List.cons_append, List.nil_append, List.cons.injEq] at hrest
      exact absurd hrest.2.2.symm (hlast [])
    · simp only [List.cons_append, List.cons.injEq] at hrest
      obtain ⟨rfl, rfl, rfl, hrest⟩ := hrest
      rw [hphrase, byteLength_append] at hfour
      simp only [byteLength, hsizeA, hsizeS, hspace] at hfour
      by_cases ht : t = []
      · subst ht
        exact .inl (by rw [List.append_nil])
      · have hpos := byteLength_pos ht
        have hone : byteLength t = 1 := by omega
        obtain ⟨c, rfl, hc⟩ := exists_cons_of_byteLength hone
        refine .inr (.inr ⟨?_, c, by simp, ?_, hc⟩)
        · rw [byteLength_append, byteLength_singleton, hc]
        · exact ink_eq_nil_iff.1 hbefore c List.mem_cons_self

/-- A cut leaves the base and the alias, but for what is trimmed, just at the end of the base or a
blank beside it. -/
theorem endsBase_iff {base w asName : List Char} (hw : w.map Char.toLower = aliasPhrase) :
    (∃ before phrase after, base ++ w ++ asName = before ++ phrase ++ after ∧
      byteLength before = n ∧ byteLength phrase = 4 ∧ trimChars before = trimChars base ∧
        trimChars after = trimChars asName) ↔ EndsBase base asName n := by
  obtain ⟨a, s, rfl, ha, hs, hsizeA, hsizeS⟩ := exists_phrase hw
  have hspace : ' '.utf8Size = 1 := by decide
  constructor
  · rintro ⟨before, phrase, after, hname, rfl, hfour, hbase, hasName⟩
    have hbefore := ink_trimChars before
    rw [hbase, ink_trimChars] at hbefore
    have hafter := ink_trimChars after
    rw [hasName, ink_trimChars] at hafter
    rw [List.append_assoc, List.append_assoc] at hname
    rcases List.append_eq_append_iff.1 hname with ⟨t, rfl, hrest⟩ | ⟨t, rfl, hrest⟩
    · rw [ink_append, List.self_eq_append_right] at hbefore
      rw [byteLength_append]
      exact endsBase_of_behind ha hsizeA hsizeS hrest hfour hbefore hafter.symm
    · rw [ink_append, List.append_right_eq_self] at hbefore
      exact endsBase_of_within hs hsizeA hsizeS hrest hfour hbefore hafter.symm
  · rintro (rfl | ⟨rfl, c, hc, hblank, hsize⟩ | ⟨hn, c, hc, hblank, hsize⟩)
    · exact ⟨base, [' ', a, s, ' '], asName, rfl, rfl, by simp [byteLength, *], rfl, rfl⟩
    · obtain ⟨rest, rfl⟩ := List.head?_eq_some_iff.1 hc
      refine ⟨base ++ [' '], [a, s, ' ', c], rest, by simp, ?_, by simp [byteLength, *], ?_, ?_⟩
      · rw [byteLength_append, byteLength_singleton, hspace]
      · exact trimChars_concat (by decide) base
      · exact (trimChars_cons hblank rest).symm
    · obtain ⟨front, rfl⟩ := List.getLast?_eq_some_iff.1 hc
      refine ⟨front, [c, ' ', a, s], ' ' :: asName, by simp, ?_, by simp [byteLength, *], ?_, ?_⟩
      · rw [byteLength_append, byteLength_singleton, hsize] at hn
        omega
      · exact (trimChars_concat hblank front).symm
      · exact trimChars_cons (by decide) asName

theorem splitAlias_append_iff {base asWord asName : String} (hbase : trim base ≠ "")
    (hasName : trim asName ≠ "") (hnone : ¬HasAlias base.toList)
    (hword : asWord.toList.map Char.toLower = aliasPhrase) :
    splitAlias (base ++ asWord ++ asName) = some (trim base, trim asName) ↔
      EndsBase base.toList asName.toList (lowerLength (foundBase base.toList)) := by
  have hname : (base ++ asWord ++ asName).toList =
      base.toList ++ asWord.toList ++ asName.toList := by
    rw [String.toList_append, String.toList_append]
  have hink {s : String} (hs : trim s ≠ "") : trimChars s.toList ≠ [] := by
    intro h
    rw [trim, h] at hs
    exact hs rfl
  have htrim {s : String} {cs : List Char} :
      trim s = String.ofList cs ↔ cs = trimChars s.toList := by
    rw [trim, String.ofList_inj, eq_comm]
  rw [splitAlias_eq_some_iff (aliasOffset?_append hnone hword hname), ← endsBase_iff hword, hname]
  refine exists_congr fun before => exists_congr fun phrase => exists_congr fun after => ?_
  rw [htrim, htrim]
  constructor
  · rintro ⟨hcut, hstart, hfour, -, -, htrims⟩
    exact ⟨hcut, hstart, hfour, htrims⟩
  · rintro ⟨hcut, hstart, hfour, htrims⟩
    exact ⟨hcut, hstart, hfour, htrims.1 ▸ hink hbase, htrims.2 ▸ hink hasName, htrims⟩

/-- A base whose characters keep their lengths and that does not end with ` as` is split from any
alias. -/
theorem splitAlias_append {base asWord asName : String} (hbase : trim base ≠ "")
    (hasName : trim asName ≠ "") (hnone : ¬HasAlias base.toList)
    (hword : asWord.toList.map Char.toLower = aliasPhrase)
    (hlengths : ∀ c ∈ base.toList, byteLength (lowerChar c) = c.utf8Size)
    (hopen : endsOpen base.toList = false) :
    splitAlias (base ++ asWord ++ asName) = some (trim base, trim asName) := by
  rw [splitAlias_append_iff hbase hasName hnone hword, foundBase, hopen,
    if_neg Bool.false_ne_true, lowerLength_eq_byteLength hlengths]
  exact .inl rfl

/-- All names over some characters, those of the phrase among them, are cut between characters just
when each of these characters keeps its length in lower case. A base without an alias of its own is
split from the alias behind it just when what is lower-cased in front of the phrase that is found
has the length of the base, but for a blank. -/
theorem alias_cut_iff {S : Char → Prop} (hphrase : ∀ x ∈ aliasPhrase, S x)
    {base asWord asName : String} (hbase : trim base ≠ "") (hasName : trim asName ≠ "")
    (hnone : ¬HasAlias base.toList) (hword : asWord.toList.map Char.toLower = aliasPhrase) :
    ((∀ name : String, (∀ c ∈ name.toList, S c) → CutsCleanly name) ↔
      ∀ c, S c → byteLength (lowerChar c) = c.utf8Size) ∧
    (splitAlias (base ++ asWord ++ asName) = some (trim base, trim asName) ↔
      EndsBase base.toList asName.toList (lowerLength (foundBase base.toList))) := by
  refine ⟨⟨fun hclean c hc => ?_, fun hlengths name hname => ?_⟩,
    splitAlias_append_iff hbase hasName hnone hword⟩
  · by_contra hlength
    refine not_cutsCleanly hlength (hclean _ fun x hx => ?_)
    simp only [String.toList_ofList, List.mem_append, List.mem_singleton] at hx
    rcases hx with (rfl | hx) | rfl
    · exact hc
    · exact hphrase x hx
    · exact hc
  · exact cutsCleanly_of_lengths fun c hc => hlengths c (hname c hc)

/-- ASCII names are cut cleanly, and so is a base with an eszett from its alias. -/
theorem eszett_split :
    (∀ x ∈ aliasPhrase, x.toNat < 128) ∧
    (trim "ma\u00df" ≠ "" ∧ trim "m" ≠ "" ∧ ¬HasAlias "ma\u00df".toList ∧
      " aS ".toList.map Char.toLower = aliasPhrase) ∧
    ((∀ name : String, (∀ c ∈ name.toList, c.toNat < 128) → CutsCleanly name) ↔
      ∀ c : Char, c.toNat < 128 → byteLength (lowerChar c) = c.utf8Size) ∧
    (splitAlias ("ma\u00df" ++ " aS " ++ "m") = some (trim "ma\u00df", trim "m") ↔
      EndsBase "ma\u00df".toList "m".toList (lowerLength (foundBase "ma\u00df".toList))) :=
  have hphrase : ∀ x ∈ aliasPhrase, x.toNat < 128 := by simp [aliasPhrase]
  ⟨hphrase, by decide +kernel,
    alias_cut_iff (S := fun c => c.toNat < 128) hphrase (by decide +kernel) (by decide +kernel)
      (by decide +kernel) (by decide +kernel)⟩

/-- A Kelvin sign, which is shorter in lower case, has its own bytes cut apart. A dotted capital I,
which is longer, is not split from its alias. -/
theorem kelvin_and_dotted_cut :
    ¬CutsCleanly "\u212a AS k" ∧
    trim "\u0130" ≠ "" ∧ trim "x" ≠ "" ∧ ¬HasAlias "\u0130".toList ∧ ¬HasAlias "x".toList ∧
      splitAlias ("\u0130" ++ " AS " ++ "x") ≠ some (trim "\u0130", trim "x") := by
  decide +kernel

end RowMapper.Sql
