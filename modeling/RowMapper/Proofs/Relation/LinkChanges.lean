import RowMapper.Proofs.Parameter.Names
import RowMapper.Relation.Junction

/-! # Which links are written and which are deleted

Keys are compared by their text. What is added and what is removed is therefore a
matter of texts, and it is what the keys themselves ask for just when their texts
tell them apart. The text of bytes is their number only.
-/

namespace RowMapper

namespace Value

@[simp] theorem keyString_bytes_eq_iff {b c : List UInt8} :
    (Value.bytes b).keyString = (Value.bytes c).keyString ↔ b.length = c.length := by
  have hiff : (Value.bytes b).keyString = (Value.bytes c).keyString ↔
      toString b.length = toString c.length := by
    simp only [keyString, display, String.append_left_inj, String.append_right_inj]
  rw [hiff]
  exact ⟨Sql.toString_injective, fun h => by rw [h]⟩

end Value

namespace LinkChanges

theorem hasKey_iff {keys : List Value} {v : Value} :
    hasKey keys v = true ↔ ∃ w ∈ keys, w.keyString = v.keyString := by
  simp [hasKey]

/-! ## The keys that are wanted -/

theorem mem_of_mem_distinctKeys {seen : List String} {keys : List Value} {v : Value}
    (h : v ∈ distinctKeys seen keys) : v ∈ keys := by
  induction keys generalizing seen with
  | nil => exact h
  | cons w rest ih =>
    rw [distinctKeys] at h
    split at h
    · exact List.mem_cons_of_mem w (ih h)
    · rcases List.mem_cons.1 h with rfl | h
      · exact List.mem_cons_self
      · exact List.mem_cons_of_mem w (ih h)

/-- Of each text that a wanted key has, one key is kept. -/
theorem exists_mem_distinctKeys {seen : List String} {keys : List Value} {text : String} :
    (∃ v ∈ distinctKeys seen keys, v.keyString = text) ↔
      text ∉ seen ∧ ∃ v ∈ keys, v.isEmpty = false ∧ v.keyString = text := by
  induction keys generalizing seen with
  | nil => simp [distinctKeys]
  | cons w rest ih =>
    rw [distinctKeys]
    split
    · next hskip =>
      have hw : w.isEmpty = true ∨ w.keyString ∈ seen := by simpa using hskip
      rw [ih]
      constructor
      · rintro ⟨hseen, v, hv, hvalue⟩
        exact ⟨hseen, v, List.mem_cons_of_mem w hv, hvalue⟩
      · rintro ⟨hseen, v, hv, hempty, htext⟩
        rcases List.mem_cons.1 hv with rfl | hv
        · -- the key itself is no wanted one: it is empty, or its text was there before
          rcases hw with hw | hw
          · simp [hw] at hempty
          · exact absurd (htext ▸ hw) hseen
        · exact ⟨hseen, v, hv, hempty, htext⟩
    · next hkeep =>
      have hw : w.isEmpty = false ∧ w.keyString ∉ seen := by simpa using hkeep
      by_cases htext : w.keyString = text
      · constructor
        · intro _
          exact ⟨htext ▸ hw.2, w, List.mem_cons_self, hw.1, htext⟩
        · intro _
          exact ⟨w, List.mem_cons_self, htext⟩
      · have hseen : text ∉ w.keyString :: seen ↔ text ∉ seen := by simp [Ne.symm htext]
        simp only [List.exists_mem_cons_iff, htext, false_or, and_false, ih, hseen]

theorem exists_mem_wanted {keys : List Value} {text : String} :
    (∃ v ∈ distinctKeys [] keys, v.keyString = text) ↔
      ∃ v ∈ keys, v.isEmpty = false ∧ v.keyString = text := by
  rw [exists_mem_distinctKeys]
  simp

/-! ## Added and removed keys -/

variable {present wanted : List Value}

/-- The texts of the added keys are those of wanted keys that no present key has. -/
theorem exists_mem_added {text : String} :
    (∃ v ∈ (between present wanted).added, v.keyString = text) ↔
      (∃ v ∈ wanted, v.isEmpty = false ∧ v.keyString = text) ∧
        ∀ w ∈ present, w.keyString ≠ text := by
  rw [← exists_mem_wanted]
  constructor
  · rintro ⟨v, hv, rfl⟩
    obtain ⟨hv, hnew⟩ := List.mem_filter.1 hv
    refine ⟨⟨v, hv, rfl⟩, fun w hw h => ?_⟩
    simp [hasKey_iff.2 ⟨w, hw, h⟩] at hnew
  · rintro ⟨⟨v, hv, rfl⟩, hnone⟩
    refine ⟨v, List.mem_filter.2 ⟨hv, ?_⟩, rfl⟩
    cases hhas : hasKey present v with
    | false => rfl
    | true =>
      obtain ⟨w, hw, h⟩ := hasKey_iff.1 hhas
      exact absurd h (hnone w hw)

theorem mem_removed {v : Value} : v ∈ (between present wanted).removed ↔
    v ∈ present ∧ ∀ w ∈ wanted, w.isEmpty = false → w.keyString ≠ v.keyString := by
  rw [between, List.mem_filter]
  apply and_congr_right
  intro hv
  rw [Bool.not_eq_true', ← Bool.not_eq_true, hasKey_iff, exists_mem_wanted]
  simp

/-- The differences are those between the keys themselves: a wanted key that is not present is
added, and a present one that is not wanted is removed. -/
def Exact (present wanted : List Value) : Prop :=
  (∀ v ∈ wanted, v.isEmpty = false → v ∉ present → v ∈ (between present wanted).added) ∧
    ∀ v ∈ present, v ∉ wanted → v ∈ (between present wanted).removed

theorem exact_of_injective (h : ∀ v ∈ present ++ wanted, ∀ w ∈ present ++ wanted,
    v.keyString = w.keyString → v = w) : Exact present wanted := by
  constructor
  · intro v hv hempty hnew
    have htext : ∃ w ∈ (between present wanted).added, w.keyString = v.keyString := by
      refine exists_mem_added.2 ⟨⟨v, hv, hempty, rfl⟩, fun w hw heq => hnew ?_⟩
      exact h w (List.mem_append_left _ hw) v (List.mem_append_right _ hv) heq ▸ hw
    obtain ⟨w, hw, heq⟩ := htext
    have hmem := mem_of_mem_distinctKeys (List.mem_filter.1 hw).1
    exact h w (List.mem_append_right _ hmem) v (List.mem_append_right _ hv) heq ▸ hw
  · intro v hv hnew
    refine mem_removed.2 ⟨hv, fun w hw _ heq => hnew ?_⟩
    exact h w (List.mem_append_right _ hw) v (List.mem_append_left _ hv) heq ▸ hw

/-- Two strings of bytes are told apart in every comparison of their keys just when they have
different lengths. -/
theorem exact_bytes_iff {b c : List UInt8} (hb : b ≠ []) (hne : b ≠ c) :
    (∀ present wanted : List Value, (∀ v ∈ present ++ wanted, v = .bytes b ∨ v = .bytes c) →
      Exact present wanted) ↔ b.length ≠ c.length := by
  constructor
  · intro h hlength
    have hexact := h [.bytes c] [.bytes b] (by simp)
    have hadded : Value.bytes b ∈ (between [.bytes c] [.bytes b]).added := by
      apply hexact.1 _ (List.mem_singleton_self _)
      · simpa [Value.isEmpty] using hb
      · simpa using hne
    have htext := exists_mem_added.1 ⟨_, hadded, rfl⟩
    exact htext.2 _ (List.mem_singleton_self _) (Value.keyString_bytes_eq_iff.2 hlength.symm)
  · intro hlength present wanted hmem
    apply exact_of_injective
    intro v hv w hw heq
    rcases hmem v hv with rfl | rfl <;> rcases hmem w hw with rfl | rfl
    · rfl
    · exact absurd (Value.keyString_bytes_eq_iff.1 heq) hlength
    · exact absurd (Value.keyString_bytes_eq_iff.1 heq).symm hlength
    · rfl

end LinkChanges

end RowMapper
