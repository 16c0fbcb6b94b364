/-! # Entries in insertion order

A finite map from names to values that remembers the order in which its names
were first put in. Putting a known name changes the value and not the place.
-/

namespace RowMapper

/-- Pairs of a name and a value, in the order in which the names were first put in. -/
abbrev Entries (α : Type u) := List (String × α)

namespace Entries

variable {α : Type u}

def get? : Entries α → String → Option α
  | [], _ => none
  | (k, v) :: rest, key => if k = key then some v else get? rest key

def has (m : Entries α) (key : String) : Bool := (m.get? key).isSome

/-- Give a name a value. A name that has one keeps its place with the new value, and a new name
comes last. -/
def put : Entries α → String → α → Entries α
  | [], key, value => [(key, value)]
  | (k, v) :: rest, key, value =>
    if k = key then (key, value) :: rest else (k, v) :: put rest key value

/-- Take a name out; the order of the others stays. -/
def erase (m : Entries α) (key : String) : Entries α :=
  m.filter fun entry => entry.1 ≠ key

def names (m : Entries α) : List String := m.map Prod.fst

def ofPairs (pairs : List (String × α)) : Entries α :=
  pairs.foldl (fun m (key, value) => put m key value) []

@[simp] theorem get?_nil (key : String) : get? ([] : Entries α) key = none := rfl

theorem get?_cons (k key : String) (v : α) (rest : Entries α) :
    get? ((k, v) :: rest) key = if k = key then some v else get? rest key := rfl

@[simp] theorem get?_put_self (m : Entries α) (key : String) (value : α) :
    (m.put key value).get? key = some value := by
  induction m with
  | nil => simp [put, get?]
  | cons entry rest ih =>
    obtain ⟨k, v⟩ := entry
    rw [put]
    split
    · simp [get?]
    · next h => simpa [get?, h] using ih

theorem get?_put_of_ne (m : Entries α) {key other : String} (value : α) (h : key ≠ other) :
    (m.put key value).get? other = m.get? other := by
  induction m with
  | nil => simp [put, get?, h]
  | cons entry rest ih =>
    obtain ⟨k, v⟩ := entry
    rw [put]
    split
    · next hk => subst hk; simp [get?, h]
    · simp [get?, ih]

theorem has_put (m : Entries α) (key other : String) (value : α) :
    (m.put key value).has other = (decide (key = other) || m.has other) := by
  by_cases h : key = other
  · subst h
    simp [has]
  · simp [has, get?_put_of_ne m value h, h]

theorem mem_names_iff {m : Entries α} {key : String} : key ∈ m.names ↔ m.has key := by
  induction m with
  | nil => simp [names, has]
  | cons entry rest ih =>
    obtain ⟨k, v⟩ := entry
    simp only [names, has, List.map_cons, List.mem_cons, get?_cons] at ih ⊢
    by_cases h : k = key
    · simp [h]
    · simp [h, Ne.symm h, ih]

theorem mem_of_get? {m : Entries α} {key : String} {value : α} (h : m.get? key = some value) :
    (key, value) ∈ m := by
  induction m with
  | nil => cases h
  | cons entry rest ih =>
    obtain ⟨k, v⟩ := entry
    rw [get?_cons] at h
    split at h
    · next hk =>
      cases h
      exact hk ▸ List.mem_cons_self
    · exact List.mem_cons_of_mem _ (ih h)

theorem mem_put {m : Entries α} {key : String} {value : α} {entry : String × α}
    (h : entry ∈ m.put key value) : entry ∈ m ∨ entry = (key, value) := by
  induction m with
  | nil => exact .inr (List.mem_singleton.1 h)
  | cons first rest ih =>
    rcases first with ⟨k, v⟩
    rw [put] at h
    split at h
    · rcases List.mem_cons.1 h with rfl | h
      · exact .inr rfl
      · exact .inl (List.mem_cons_of_mem _ h)
    · rcases List.mem_cons.1 h with rfl | h
      · exact .inl List.mem_cons_self
      · exact (ih h).imp_left (List.mem_cons_of_mem _)

theorem get?_of_mem {m : Entries α} (hnames : m.names.Nodup) {key : String} {value : α}
    (h : (key, value) ∈ m) : m.get? key = some value := by
  induction m with
  | nil => cases h
  | cons entry rest ih =>
    obtain ⟨k, v⟩ := entry
    rw [names, List.map_cons, List.nodup_cons] at hnames
    rw [get?_cons]
    rcases List.mem_cons.1 h with heq | hrest
    · cases heq
      rw [if_pos rfl]
    · have hne : k ≠ key := by
        rintro rfl
        exact hnames.1 (List.mem_map.2 ⟨_, hrest, rfl⟩)
      rw [if_neg hne, ih hnames.2 hrest]

/-- A new name goes to the end and a known name keeps its place. -/
theorem names_put (m : Entries α) (key : String) (value : α) :
    (m.put key value).names = if m.has key then m.names else m.names ++ [key] := by
  induction m with
  | nil => simp [put, names, has]
  | cons entry rest ih =>
    obtain ⟨k, v⟩ := entry
    rw [put]
    by_cases h : k = key
    · simp [h, names, has, get?]
    · simp only [h, if_false, names, List.map_cons, has, get?_cons] at ih ⊢
      rw [ih]
      by_cases hr : (get? rest key).isSome <;> simp [hr]

theorem put_of_none {m : Entries α} {key : String} (h : m.get? key = none) (value : α) :
    m.put key value = m ++ [(key, value)] := by
  induction m with
  | nil => rfl
  | cons entry rest ih =>
    obtain ⟨k, v⟩ := entry
    rw [get?_cons] at h
    split at h
    · cases h
    · next hne => rw [put, if_neg hne, ih h, List.cons_append]

theorem nodup_put {m : Entries α} (h : m.names.Nodup) (key : String) (value : α) :
    (m.put key value).names.Nodup := by
  rw [names_put]
  split
  · exact h
  · next hkey =>
    have hnew : key ∉ m.names := fun hmem => hkey (mem_names_iff.1 hmem)
    refine List.nodup_append.2 ⟨h, by simp, fun name hname other hother heq => ?_⟩
    rw [heq, List.mem_singleton.1 hother] at hname
    exact hnew hname

theorem ofPairs_of_nodup {pairs : List (String × α)} (h : (names pairs).Nodup) :
    ofPairs pairs = pairs := by
  suffices hrest : ∀ m : Entries α, (names (m ++ pairs)).Nodup →
      pairs.foldl (fun m entry => put m entry.1 entry.2) m = m ++ pairs from hrest [] h
  clear h
  induction pairs with
  | nil => simp
  | cons entry rest ih =>
    obtain ⟨key, value⟩ := entry
    intro m h
    have hnew : m.get? key = none := by
      cases hget : m.get? key with
      | none => rfl
      | some other =>
        have hmem : key ∈ m.names := mem_names_iff.2 (by rw [has, hget]; rfl)
        rw [names, List.map_append, List.nodup_append] at h
        exact absurd rfl (h.2.2 key hmem key List.mem_cons_self)
    rw [List.foldl_cons, put_of_none hnew, ih, List.append_assoc]
    · rfl
    · rwa [List.append_assoc]

theorem nodup_of_perm {m n : Entries α} (hm : m.names.Nodup) (h : n.Perm m) : n.names.Nodup :=
  (h.map Prod.fst).nodup_iff.2 hm

theorem get?_of_perm {m n : Entries α} (hm : m.names.Nodup) (h : n.Perm m) (key : String) :
    n.get? key = m.get? key := by
  have hn : n.names.Nodup := nodup_of_perm hm h
  apply Option.ext
  intro value
  constructor
  · intro hget
    exact get?_of_mem hm (h.mem_iff.1 (mem_of_get? hget))
  · intro hget
    exact get?_of_mem hn (h.mem_iff.2 (mem_of_get? hget))

theorem get?_erase_self (m : Entries α) (key : String) : (m.erase key).get? key = none := by
  induction m with
  | nil => rfl
  | cons entry rest ih =>
    obtain ⟨k, v⟩ := entry
    by_cases h : k = key
    · simpa [erase, h] using ih
    · simp only [erase, ne_eq, decide_not] at ih
      simpa [erase, h, get?] using ih

theorem get?_erase_of_ne (m : Entries α) {key other : String} (h : key ≠ other) :
    (m.erase key).get? other = m.get? other := by
  induction m with
  | nil => rfl
  | cons entry rest ih =>
    obtain ⟨k, v⟩ := entry
    simp only [erase, ne_eq, decide_not] at ih
    by_cases hk : k = key
    · subst hk
      simp [erase, get?, h, ih]
    · by_cases ho : k = other
      · subst ho
        simp [erase, get?, hk]
      · simp [erase, get?, hk, ho, ih]

end Entries

end RowMapper
