import RowMapper.Record.Identity

/-! # Copies stand under their own keys

Every copy in an identity map is filed under the model and the text of the key of
the copied record. All operations on the map keep that, so that a copy that was
found has the text of the key that was asked for; it need not have the key.
-/

namespace RowMapper

@[simp] theorem Record.key?_detached (r : Record) : r.detached.key? = r.key? := rfl

@[simp] theorem Record.model_detached (r : Record) : r.detached.model = r.model := rfl

namespace IdentityMap

/-- Every copy is filed under its own model and the text of its own key. -/
def Filed (m : IdentityMap) : Prop :=
  ∀ entry ∈ m.entries, ∃ key, entry.2.key? = some key ∧ entry.1 = .of entry.2.model key

variable {m : IdentityMap}

theorem Filed.of_nil (h : m.entries = []) : m.Filed := by
  intro entry hentry
  simp [h] at hentry

theorem Filed.of_subset {m' : IdentityMap} (h : m.Filed) (hsub : m'.entries ⊆ m.entries) :
    m'.Filed :=
  fun entry hentry => h entry (hsub hentry)

theorem Filed.store (h : m.Filed) (r : Record) : (m.store r).Filed := by
  unfold IdentityMap.store
  split
  · exact h
  · next key hkey =>
    intro entry hentry
    rcases List.mem_cons.1 hentry with rfl | hentry
    · exact ⟨key, hkey, rfl⟩
    · exact h entry ((List.mem_filter.1 hentry).1)

theorem Filed.get (h : m.Filed) (i : Identity) : (m.get i).2.Filed := by
  unfold IdentityMap.get
  split <;> exact h

theorem Filed.invalidate (h : m.Filed) (i : Identity) : (m.invalidate i).2.Filed := by
  unfold IdentityMap.invalidate
  split
  · exact h.of_subset (fun _ he => (List.mem_filter.1 he).1)
  · exact h

theorem Filed.dropModel (h : m.Filed) (model : String) : (m.dropModel model).Filed :=
  h.of_subset (fun _ he => (List.mem_filter.1 he).1)

theorem Filed.clear (m : IdentityMap) : m.clear.Filed := .of_nil rfl

theorem Filed.find? (h : m.Filed) {model : String} {key : Value} {r : Record}
    (hfind : m.find? (.of model key) = some r) :
    ∃ own, r.key? = some own ∧ r.model = model ∧ own.keyString = key.keyString := by
  obtain ⟨before, after, hentries, -⟩ := List.lookup_eq_some_iff.1 hfind
  obtain ⟨own, hown, hi⟩ := h (.of model key, r) (by simp [hentries])
  simp only [Identity.of, Identity.mk.injEq] at hi
  exact ⟨own, hown, hi.1.symm, hi.2.symm⟩

/-- A stored record is found under every key of its model with the text of its own. -/
theorem find?_store {r : Record} {own key : Value} (hown : r.key? = some own)
    (htext : own.keyString = key.keyString) :
    (m.store r).find? (.of r.model key) = some r.detached := by
  have hi : Identity.of r.model key = .of r.model own := by
    simp [Identity.of, htext]
  rw [hi]
  exact find?_store_self m r hown

end IdentityMap

end RowMapper
