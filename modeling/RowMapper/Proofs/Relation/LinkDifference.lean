import RowMapper.Proofs.Relation.LinkChanges

/-! # The difference between present and wanted links

What is added are the first wanted keys of their texts, in the order in which they are
wanted, and what is removed are present keys in the order in which they are present.
Together they lead from the texts that are present to just those that are wanted.
-/

namespace RowMapper.LinkChanges

def texts (keys : List Value) : List String := keys.map Value.keyString

def wantedTexts (keys : List Value) : List String := texts (keys.filter fun v => !v.isEmpty)

/-- The place of the first key that is not empty and has the text of a key. -/
def firstPlace (keys : List Value) (v : Value) : Nat :=
  keys.findIdx fun w => !w.isEmpty && w.keyString == v.keyString

theorem mem_texts {keys : List Value} {text : String} :
    text ∈ texts keys ↔ ∃ v ∈ keys, v.keyString = text :=
  List.mem_map

theorem mem_wantedTexts {keys : List Value} {text : String} :
    text ∈ wantedTexts keys ↔ ∃ v ∈ keys, v.isEmpty = false ∧ v.keyString = text := by
  simp [wantedTexts, texts, and_assoc]

/-! ## The order of the wanted keys -/

theorem firstPlace_cons_self {v : Value} (hempty : v.isEmpty = false) (keys : List Value) :
    firstPlace (v :: keys) v = 0 := by
  simp [firstPlace, List.findIdx_cons, hempty]

theorem firstPlace_cons_of_ne {v w : Value} (h : w.isEmpty = true ∨ w.keyString ≠ v.keyString)
    (keys : List Value) : firstPlace (w :: keys) v = firstPlace keys v + 1 := by
  have hno : (!w.isEmpty && w.keyString == v.keyString) = false := by
    rcases h with h | h <;> simp [h]
  rw [firstPlace, List.findIdx_cons, hno]
  rfl

theorem of_mem_distinctKeys {seen : List String} {keys : List Value} {v : Value}
    (h : v ∈ distinctKeys seen keys) : v.isEmpty = false ∧ v.keyString ∉ seen := by
  refine ⟨?_, (exists_mem_distinctKeys.1 ⟨v, h, rfl⟩).1⟩
  induction keys generalizing seen with
  | nil => cases h
  | cons w rest ih =>
    rw [distinctKeys] at h
    split at h
    · exact ih h
    · next hkeep =>
      have hkept : w.isEmpty = false ∧ w.keyString ∉ seen := by simpa using hkeep
      rcases List.mem_cons.1 h with rfl | h
      · exact hkept.1
      · exact ih h

/-- The keys that are kept are the first ones of their texts, and their order stays. -/
theorem distinctKeys_ordered (seen : List String) (keys : List Value) :
    (∀ v ∈ distinctKeys seen keys, keys[firstPlace keys v]? = some v) ∧
      (distinctKeys seen keys).Pairwise fun v w => firstPlace keys v < firstPlace keys w := by
  induction keys generalizing seen with
  | nil => simp [distinctKeys]
  | cons w rest ih =>
    rw [distinctKeys]
    split
    · next hskip =>
      obtain ⟨hfirst, hordered⟩ := ih seen
      -- A key that is kept later on is not the one that is skipped here.
      have hplace : ∀ v ∈ distinctKeys seen rest,
          firstPlace (w :: rest) v = firstPlace rest v + 1 := by
        intro v hv
        have hw : w.isEmpty = true ∨ w.keyString ∈ seen := by simpa using hskip
        refine firstPlace_cons_of_ne (hw.imp_right fun hseen heq => ?_) rest
        exact (of_mem_distinctKeys hv).2 (heq ▸ hseen)
      refine ⟨fun v hv => by rw [hplace v hv]; exact hfirst v hv, ?_⟩
      refine hordered.imp_of_mem fun {v v'} hv hv' hlt => ?_
      rw [hplace v hv, hplace v' hv']
      exact Nat.succ_lt_succ hlt
    · next hkeep =>
      obtain ⟨hfirst, hordered⟩ := ih (w.keyString :: seen)
      have hkept : w.isEmpty = false ∧ w.keyString ∉ seen := by simpa using hkeep
      have hplace : ∀ v ∈ distinctKeys (w.keyString :: seen) rest,
          firstPlace (w :: rest) v = firstPlace rest v + 1 := by
        intro v hv
        refine firstPlace_cons_of_ne (.inr fun heq => ?_) rest
        exact (of_mem_distinctKeys hv).2 (heq ▸ List.mem_cons_self)
      constructor
      · intro v hv
        rcases List.mem_cons.1 hv with rfl | hv
        · rw [firstPlace_cons_self hkept.1]
          rfl
        · rw [hplace v hv]
          exact hfirst v hv
      · refine List.pairwise_cons.2
          ⟨fun v hv => ?_, hordered.imp_of_mem fun {v v'} hv hv' hlt => ?_⟩
        · rw [firstPlace_cons_self hkept.1, hplace v hv]
          exact Nat.succ_pos _
        · rw [hplace v hv, hplace v' hv']
          exact Nat.succ_lt_succ hlt

/-! ## The difference -/

/-- Changes that lead from the texts of the present keys to those of the wanted ones. -/
structure Difference (present wanted : List Value) (c : LinkChanges) : Prop where
  /-- Each added key is the first wanted one that is not empty and has its text. -/
  first : ∀ v ∈ c.added, v.isEmpty = false ∧ wanted[firstPlace wanted v]? = some v
  /-- The added keys stand in the order in which they are first wanted. -/
  ordered : c.added.Pairwise fun v w => firstPlace wanted v < firstPlace wanted w
  distinct : (texts c.added).Nodup
  disjoint : ∀ v ∈ c.added, v.keyString ∉ texts present
  /-- The removed keys stand in the order in which they are present. -/
  removed : c.removed = present.filter fun v => decide (v.keyString ∉ wantedTexts wanted)
  /-- The keys that stay and the added ones have just the wanted texts. -/
  linked : ∀ text, (text ∈ texts present ∧ text ∉ texts c.removed) ∨ text ∈ texts c.added ↔
    text ∈ wantedTexts wanted

variable {present wanted : List Value}

theorem mem_texts_added {text : String} : text ∈ texts (between present wanted).added ↔
    text ∈ wantedTexts wanted ∧ text ∉ texts present := by
  rw [mem_texts, exists_mem_added, mem_wantedTexts, mem_texts]
  simp

theorem removed_eq_filter : (between present wanted).removed =
    present.filter fun v => decide (v.keyString ∉ wantedTexts wanted) := by
  refine List.filter_congr fun v _ => ?_
  have hwanted : hasKey (distinctKeys [] wanted) v = true ↔ v.keyString ∈ wantedTexts wanted := by
    rw [hasKey_iff, exists_mem_wanted, mem_wantedTexts]
  by_cases h : v.keyString ∈ wantedTexts wanted
  · simp [hwanted.2 h, h]
  · simp [Bool.eq_false_iff.2 (hwanted.not.2 h), h]

theorem mem_texts_removed {text : String} : text ∈ texts (between present wanted).removed ↔
    text ∈ texts present ∧ text ∉ wantedTexts wanted := by
  rw [removed_eq_filter, mem_texts, mem_texts]
  constructor
  · rintro ⟨v, hv, rfl⟩
    obtain ⟨hv, hnot⟩ := List.mem_filter.1 hv
    exact ⟨⟨v, hv, rfl⟩, of_decide_eq_true hnot⟩
  · rintro ⟨⟨v, hv, rfl⟩, hnot⟩
    exact ⟨v, List.mem_filter.2 ⟨hv, decide_eq_true hnot⟩, rfl⟩

theorem difference_between (present wanted : List Value) :
    Difference present wanted (between present wanted) := by
  obtain ⟨hfirst, hordered⟩ := distinctKeys_ordered [] wanted
  have hadded : ∀ v ∈ (between present wanted).added, v ∈ distinctKeys [] wanted :=
    fun v hv => (List.mem_filter.1 hv).1
  have hpairs : (between present wanted).added.Pairwise
      fun v w => firstPlace wanted v < firstPlace wanted w := hordered.filter _
  constructor
  case first => exact fun v hv => ⟨(of_mem_distinctKeys (hadded v hv)).1, hfirst v (hadded v hv)⟩
  case ordered => exact hpairs
  case distinct =>
    -- Keys with one text have one first place.
    refine List.pairwise_map.2 (hpairs.imp fun {v w} hlt heq => ?_)
    rw [firstPlace, firstPlace, heq] at hlt
    exact Nat.lt_irrefl _ hlt
  case disjoint => exact fun v hv => (mem_texts_added.1 (mem_texts.2 ⟨v, hv, rfl⟩)).2
  case removed => exact removed_eq_filter
  case linked =>
    intro text
    rw [mem_texts_removed, mem_texts_added]
    by_cases hwanted : text ∈ wantedTexts wanted <;>
      by_cases hpresent : text ∈ texts present <;> simp [hwanted, hpresent]

end RowMapper.LinkChanges
