import RowMapper.Proofs.Url.Encoding

/-! # Paths that stand for themselves

A path is encoded and resolved when it is read, and what comes out of that stands for itself: it
has no character that is encoded in a path and no dot segment, and reading it again gives it back.
Reading never makes a path longer unless it encodes a character.
-/

namespace RowMapper.Url

open Text

/-- Whether a segment stands for a directory instead of a name. -/
def isDot (segment : List Char) : Bool := isDoubleDot segment || isSingleDot segment

/-- A path that neither has a character to encode nor a dot segment. -/
structure IsPlainPath (cs : List Char) : Prop where
  encoded : ∀ c ∈ cs, encodedInPath c = false
  segment : ∀ segment ∈ splitChars '/' cs, isDot segment = false

instance (cs : List Char) : Decidable (IsPlainPath cs) :=
  decidable_of_iff (cs.all (fun c => !encodedInPath c) = true ∧
    (splitChars '/' cs).all (fun segment => !isDot segment) = true)
    ⟨fun h => ⟨by simpa using h.1, by simpa using h.2⟩,
      fun h => ⟨by simpa using h.encoded, by simpa using h.segment⟩⟩

/-! ## Segments -/

def slashed (segments : List (List Char)) : List Char := segments.flatMap fun s => '/' :: s

@[simp] theorem slashed_nil : slashed [] = [] := rfl

@[simp] theorem slashed_cons (segment : List Char) (segments : List (List Char)) :
    slashed (segment :: segments) = '/' :: segment ++ slashed segments := rfl

theorem slashed_append (xs ys : List (List Char)) :
    slashed (xs ++ ys) = slashed xs ++ slashed ys := List.flatMap_append

theorem slashed_eq_intercalate {segments : List (List Char)} (h : segments ≠ []) :
    slashed segments = '/' :: ['/'].intercalate segments := by
  induction segments with
  | nil => exact absurd rfl h
  | cons segment rest ih =>
    cases rest with
    | nil => simp [List.intercalate_singleton]
    | cons next rest =>
      rw [slashed_cons, ih (List.cons_ne_nil _ _), List.intercalate_cons_cons]
      simp

theorem length_slashed_reverse (segments : List (List Char)) :
    (slashed segments.reverse).length = (slashed segments).length := by
  induction segments with
  | nil => rfl
  | cons segment rest ih =>
    rw [List.reverse_cons, slashed_append, List.length_append, ih, slashed_cons]
    simp only [slashed_cons, slashed_nil, List.length_append, List.length_cons, List.length_nil]
    omega

/-- Behind slashes at the front of slashed segments stand the segments from the first on that is not
empty. -/
theorem mem_splitChars_slashed {segments : List (List Char)} (h : ∀ s ∈ segments, '/' ∉ s)
    {s : List Char} (hs : s ∈ splitChars '/' ((slashed segments).dropWhile (· == '/'))) :
    s = [] ∨ s ∈ segments := by
  induction segments with
  | nil =>
    rw [slashed_nil, List.dropWhile_nil, splitChars, List.mem_singleton] at hs
    exact .inl hs
  | cons segment rest ih =>
    have hrest : ∀ s ∈ rest, '/' ∉ s := fun s hs => h s (List.mem_cons_of_mem _ hs)
    rw [slashed_cons, List.cons_append, List.dropWhile_cons_of_pos (by simp)] at hs
    cases segment with
    | nil =>
      rw [List.nil_append] at hs
      exact (ih hrest hs).imp_right (List.mem_cons_of_mem _)
    | cons c cs =>
      have hc : c ≠ '/' := by
        rintro rfl
        exact h _ List.mem_cons_self List.mem_cons_self
      have hjoined : c :: cs ++ slashed rest = ['/'].intercalate ((c :: cs) :: rest) := by
        have hslashed := slashed_eq_intercalate (List.cons_ne_nil (c :: cs) rest)
        rw [slashed_cons, List.cons_append] at hslashed
        exact (List.cons.inj hslashed).2
      rw [List.cons_append, List.dropWhile_cons_of_neg (by simpa using hc), ← List.cons_append,
        hjoined, splitChars_intercalate (by simp) h] at hs
      exact .inr hs

/-! ## Resolving -/

theorem resolveSegments_cons {segment : List Char} (h : isDot segment = false)
    (done rest : List (List Char)) :
    resolveSegments done (segment :: rest) = resolveSegments (segment :: done) rest := by
  rw [isDot, Bool.or_eq_false_iff] at h
  cases rest with
  | nil => simp [resolveSegments, h.1, h.2]
  | cons next rest => simp [resolveSegments, h.1, h.2]

theorem resolveSegments_eq_self {segments : List (List Char)}
    (h : ∀ segment ∈ segments, isDot segment = false) (done : List (List Char)) :
    resolveSegments done segments = done.reverse ++ segments := by
  induction segments generalizing done with
  | nil => simp [resolveSegments]
  | cons segment rest ih =>
    rw [List.forall_mem_cons] at h
    rw [resolveSegments_cons h.1, ih h.2, List.reverse_cons, List.append_assoc]
    rfl

theorem dropSegment_sublist (done : List (List Char)) : (dropSegment done).Sublist done := by
  cases done with
  | nil => exact .slnil
  | cons segment done =>
    rw [dropSegment]
    split
    · exact .refl _
    · exact List.sublist_cons_self _ _

theorem length_slashed_dropSegment (done : List (List Char)) :
    (slashed (dropSegment done)).length ≤ (slashed done).length := by
  cases done with
  | nil => exact Nat.le_refl _
  | cons segment done =>
    rw [dropSegment]
    split
    · exact Nat.le_refl _
    · rw [slashed_cons, List.length_append]
      exact Nat.le_add_left _ _

/-- What is left after resolving was there before, or is an empty segment in place of a last dot
segment. -/
theorem mem_resolveSegments {done segments : List (List Char)} {s : List Char}
    (h : s ∈ resolveSegments done segments) :
    s = [] ∨ s ∈ done ∨ s ∈ segments ∧ isDot s = false := by
  fun_induction resolveSegments done segments with
  | case1 done => exact .inr (.inl (List.mem_reverse.1 h))
  | case2 done segment hdouble =>
    rw [List.mem_reverse, List.mem_cons] at h
    exact h.imp_right fun hs => .inl ((dropSegment_sublist done).mem hs)
  | case3 done segment _ hsingle =>
    rw [List.mem_reverse, List.mem_cons] at h
    exact h.imp_right .inl
  | case4 done segment hdouble hsingle =>
    rw [List.mem_reverse, List.mem_cons] at h
    rcases h with rfl | h
    · exact .inr (.inr ⟨List.mem_cons_self, by simp [isDot, hdouble, hsingle]⟩)
    · exact .inr (.inl h)
  | case5 done segment next rest hdouble ih =>
    rcases ih h with h | h | h
    · exact .inl h
    · exact .inr (.inl ((dropSegment_sublist done).mem h))
    · exact .inr (.inr (h.imp_left (List.mem_cons_of_mem _)))
  | case6 done segment next rest _ hsingle ih =>
    rcases ih h with h | h | h
    · exact .inl h
    · exact .inr (.inl h)
    · exact .inr (.inr (h.imp_left (List.mem_cons_of_mem _)))
  | case7 done segment next rest hdouble hsingle ih =>
    rcases ih h with h | h | h
    · exact .inl h
    · rcases List.mem_cons.1 h with rfl | h
      · exact .inr (.inr ⟨List.mem_cons_self, by simp [isDot, hdouble, hsingle]⟩)
      · exact .inr (.inl h)
    · exact .inr (.inr (h.imp_left (List.mem_cons_of_mem _)))

/-- Resolving makes nothing longer. -/
theorem length_slashed_resolveSegments (done segments : List (List Char)) :
    (slashed (resolveSegments done segments)).length ≤
      (slashed done).length + (slashed segments).length := by
  fun_induction resolveSegments done segments with
  | case1 done => rw [length_slashed_reverse, slashed_nil]; exact Nat.le_refl _
  | case2 done segment hdouble =>
    have hdrop := length_slashed_dropSegment done
    rw [length_slashed_reverse]
    simp only [slashed_cons, slashed_nil, List.length_append, List.length_cons, List.length_nil]
    omega
  | case3 done segment _ hsingle =>
    rw [length_slashed_reverse]
    simp only [slashed_cons, slashed_nil, List.length_append, List.length_cons, List.length_nil]
    omega
  | case4 done segment hdouble hsingle =>
    rw [length_slashed_reverse]
    simp only [slashed_cons, slashed_nil, List.length_append, List.length_cons, List.length_nil]
    omega
  | case5 done segment next rest hdouble ih =>
    have hdrop := length_slashed_dropSegment done
    rw [slashed_cons segment, List.length_append]
    omega
  | case6 done segment next rest _ hsingle ih =>
    rw [slashed_cons segment, List.length_append]
    omega
  | case7 done segment next rest hdouble hsingle ih =>
    rw [slashed_cons segment, List.length_append] at ih
    rw [slashed_cons segment, List.length_append]
    omega

/-! ## Reading a path -/

/-- The path without the slashes at its front, which is where the name of a database stands. -/
def bare (path : List Char) : List Char := path.dropWhile (· == '/')

def segmentsOf (cs : List Char) : List (List Char) :=
  (splitChars '/' (if cs.head? = some '/' then cs.drop 1 else cs)).map fun s =>
    s.flatMap (encodeChar encodedInPath)

theorem pathText_eq {cs : List Char} (h : cs ≠ []) :
    (pathText false cs).toList = slashed (resolveSegments [] (segmentsOf cs)) := by
  have hempty : cs.isEmpty = false := by simpa using h
  simp [pathText, hempty, segmentsOf, slashed]

theorem slash_not_mem_segmentsOf {cs : List Char} : ∀ s ∈ segmentsOf cs, '/' ∉ s := by
  intro s hs hslash
  obtain ⟨piece, hpiece, rfl⟩ := List.mem_map.1 hs
  obtain ⟨c, hc, hencoded⟩ := List.mem_flatMap.1 hslash
  rcases mem_encodeChar hencoded with ⟨-, rfl⟩ | hpercent | ⟨n, hn, hdigit⟩
  · exact (mem_of_mem_splitChars hpiece hc).2 rfl
  · exact absurd hpercent (by decide)
  · have hdigits : ∀ n < 16, upperHexDigit n ≠ '/' := by decide
    exact hdigits n hn hdigit.symm

theorem encodedInPath_of_mem_segmentsOf {cs : List Char} {s : List Char} (hs : s ∈ segmentsOf cs)
    {c : Char} (hc : c ∈ s) : encodedInPath c = false := by
  obtain ⟨piece, -, rfl⟩ := List.mem_map.1 hs
  exact leavesBytes_encodedInPath.of_mem_flatMap hc

/-- What is read as a path is plain behind its slashes. -/
theorem isPlainPath_pathText (cs : List Char) : IsPlainPath (bare (pathText false cs).toList) := by
  by_cases hne : cs = []
  · subst hne
    decide
  have hsegment {s : List Char} (hs : s ∈ resolveSegments [] (segmentsOf cs)) :
      s = [] ∨ s ∈ segmentsOf cs ∧ isDot s = false := by
    rcases mem_resolveSegments hs with h | h | h
    · exact .inl h
    · cases h
    · exact .inr h
  rw [pathText_eq hne, bare]
  constructor
  · intro c hc
    obtain ⟨s, hs, hmem⟩ := List.mem_flatMap.1 ((List.dropWhile_sublist _).mem hc)
    rcases List.mem_cons.1 hmem with rfl | hmem
    · decide
    · rcases hsegment hs with rfl | ⟨hs, -⟩
      · cases hmem
      · exact encodedInPath_of_mem_segmentsOf hs hmem
  · intro s hs
    have hslash : ∀ s ∈ resolveSegments [] (segmentsOf cs), '/' ∉ s := fun s hs => by
      rcases hsegment hs with rfl | ⟨hs, -⟩
      · simp
      · exact slash_not_mem_segmentsOf s hs
    rcases mem_splitChars_slashed hslash hs with rfl | hs
    · decide
    · rcases hsegment hs with rfl | ⟨-, hdot⟩
      · decide
      · exact hdot

theorem segmentsOf_eq {cs : List Char} (h : ∀ c ∈ cs, encodedInPath c = false) :
    segmentsOf cs = splitChars '/' (if cs.head? = some '/' then cs.drop 1 else cs) := by
  have hsub : ∀ c ∈ (if cs.head? = some '/' then cs.drop 1 else cs), encodedInPath c = false := by
    split
    · exact fun c hc => h c (List.mem_of_mem_drop hc)
    · exact h
  rw [segmentsOf, List.map_congr_left fun s hs => flatMap_encodeChar_eq_self fun c hc =>
    hsub c (mem_of_mem_splitChars hs hc).1, List.map_id']

/-- A plain path behind a slash is read as it stands. -/
theorem bare_pathText_eq_self {cs : List Char} (h : IsPlainPath cs) (hslash : cs.head? ≠ some '/') :
    bare (pathText false ('/' :: cs)).toList = cs := by
  have hencoded : ∀ c ∈ '/' :: cs, encodedInPath c = false :=
    List.forall_mem_cons.2 ⟨by decide, h.encoded⟩
  have hsegments : segmentsOf ('/' :: cs) = splitChars '/' cs := segmentsOf_eq hencoded
  rw [pathText_eq (List.cons_ne_nil _ _), hsegments, resolveSegments_eq_self h.segment,
    List.reverse_nil, List.nil_append, slashed_eq_intercalate (splitChars_ne_nil '/' cs),
    intercalate_splitChars, bare, List.dropWhile_cons_of_pos (by simp)]
  cases cs with
  | nil => rfl
  | cons c cs =>
    have hc : c ≠ '/' := by simpa using hslash
    exact List.dropWhile_cons_of_neg (by simpa using hc)

/-- Where nothing is encoded, a path does not get longer. -/
theorem length_bare_pathText {cs : List Char} (h : ∀ c ∈ cs, encodedInPath c = false) :
    (bare (pathText false cs).toList).length ≤ cs.length := by
  by_cases hne : cs = []
  · subst hne
    decide
  rw [pathText_eq hne, segmentsOf_eq h]
  generalize hbody : (if cs.head? = some '/' then cs.drop 1 else cs) = body
  have hshort : body.length ≤ cs.length := by
    rw [← hbody]
    split
    · rw [List.length_drop]
      exact Nat.sub_le _ _
    · exact Nat.le_refl _
  have hlength := length_slashed_resolveSegments [] (splitChars '/' body)
  rw [slashed_eq_intercalate (splitChars_ne_nil '/' body), intercalate_splitChars, slashed_nil,
    List.length_nil, List.length_cons] at hlength
  -- The first slash is dropped, whatever follows.
  have hdrop : (bare (slashed (resolveSegments [] (splitChars '/' body)))).length ≤
      (slashed (resolveSegments [] (splitChars '/' body))).length - 1 := by
    cases resolveSegments [] (splitChars '/' body) with
    | nil => exact Nat.le_refl _
    | cons segment rest =>
      rw [slashed_cons, List.cons_append, bare, List.dropWhile_cons_of_pos (by simp),
        List.length_cons, Nat.add_sub_cancel]
      exact (List.dropWhile_sublist _).length_le
  omega

end RowMapper.Url
