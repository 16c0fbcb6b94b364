import RowMapper.Record.Basic

/-! # The identity map

Copies of persisted records, found by model and primary key, so that a row that
was loaded once need not be asked for again. Keys are compared by their text.
-/

namespace RowMapper

structure Identity where
  model : String
  key : String
  deriving DecidableEq, Repr

def Identity.of (model : String) (key : Value) : Identity := ⟨model, key.keyString⟩

/-- Copies of persisted records, and how often they were asked for. There is at most one copy under
each model and text of a key. -/
structure IdentityMap where
  entries : List (Identity × Record) := []
  hits : Nat := 0
  misses : Nat := 0
  stores : Nat := 0
  invalidations : Nat := 0

namespace IdentityMap

def find? (m : IdentityMap) (i : Identity) : Option Record := m.entries.lookup i

def contains (m : IdentityMap) (i : Identity) : Bool := (m.find? i).isSome

/-- The copy of an identity; the question is counted. -/
def get (m : IdentityMap) (i : Identity) : Option Record × IdentityMap :=
  match m.find? i with
  | some r => (some r, { m with hits := m.hits + 1 })
  | none => (none, { m with misses := m.misses + 1 })

def without (m : IdentityMap) (i : Identity) : List (Identity × Record) :=
  m.entries.filter fun entry => entry.1 ≠ i

/-- Keep a copy of a record without its related records; a new record has no identity. -/
def store (m : IdentityMap) (r : Record) : IdentityMap :=
  match r.key? with
  | none => m
  | some key =>
    let i := Identity.of r.model key
    { m with entries := (i, r.detached) :: m.without i, stores := m.stores + 1 }

/-- Drop the copy of an identity; whether there was one is told and counted. -/
def invalidate (m : IdentityMap) (i : Identity) : Bool × IdentityMap :=
  if m.contains i then (true, { m with entries := m.without i, invalidations := m.invalidations + 1 })
  else (false, m)

def dropModel (m : IdentityMap) (model : String) : IdentityMap :=
  { m with entries := m.entries.filter fun entry => entry.1.model ≠ model }

/-- Drop all copies; the counts stay. -/
def clear (m : IdentityMap) : IdentityMap := { m with entries := [] }

def hitRatio (m : IdentityMap) : Float :=
  if m.hits + m.misses = 0 then Float.ofNat 0
  else Float.ofNat m.hits / Float.ofNat (m.hits + m.misses)

theorem lookup_filter_ne (entries : List (Identity × Record)) (i : Identity) :
    (entries.filter fun entry => entry.1 ≠ i).lookup i = none := by
  induction entries with
  | nil => rfl
  | cons entry rest ih =>
    obtain ⟨j, r⟩ := entry
    by_cases h : j = i
    · simpa [h] using ih
    · have hb : (i == j) = false := by simp [Ne.symm h]
      simpa [h, hb, List.lookup_cons] using ih

theorem find?_store_self (m : IdentityMap) (r : Record) {key : Value} (h : r.key? = some key) :
    (m.store r).find? (.of r.model key) = some r.detached := by
  simp [store, h, find?]

theorem find?_invalidate_self (m : IdentityMap) (i : Identity) :
    (m.invalidate i).2.find? i = none := by
  unfold invalidate
  split
  · exact lookup_filter_ne m.entries i
  · next h => simpa [contains] using h

end IdentityMap

end RowMapper
