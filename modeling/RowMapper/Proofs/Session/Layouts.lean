import RowMapper.Proofs.Session.Runs

/-! # Layouts of junction tables in a session

The junction table of a relation is laid out from the model that owns the relation, the
model it leads to and the prefix of the owner's connection. A session knows the three
from its configuration and its registry of models, and no operation on records changes
what it knows of them.
-/

namespace RowMapper

open Run

variable {σ : Type}

namespace SchemaRegistry

theorem resolve_fst (r : SchemaRegistry) (key : Nat) :
    (r.resolve key).1 = (r.assembled? key).getD (r.assemble (r.declared key)) := by
  unfold resolve
  cases r.assembled? key <;> rfl

/-- What one model resolves to does not depend on which models were resolved before. -/
theorem resolve_resolve (r : SchemaRegistry) (key key' : Nat) :
    ((r.resolve key).2.resolve key').1 = (r.resolve key').1 := by
  cases hkey : r.assembled? key with
  | some s =>
    have hsame : (r.resolve key).2 = r := by
      unfold resolve
      rw [hkey]
    rw [hsame]
  | none =>
    have hnext : (r.resolve key).2 =
        { r with assembled := (key, r.assemble (r.declared key)) :: r.assembled } := by
      unfold resolve
      rw [hkey]
    rw [hnext, resolve_fst, resolve_fst]
    by_cases heq : key' = key
    · subst heq
      rw [hkey]
      simp [assembled?]
    · have hother : (key' == key) = false := by simpa using heq
      simp only [assembled?, List.lookup_cons, hother]
      rfl

end SchemaRegistry

/-- The layout of a relation's junction table, with the prefix and the target that a session has
for it. -/
def Session.junction (s : Session σ) (owner : Schema) (name : String) (relation : Relation) :
    Except Error Junction :=
  (DatabaseConfig.tablePrefix s.config owner.connection).map
    (.ofRelation owner name relation (s.schemas.resolve relation.target.key).1)

def Session.SameLayouts (s t : Session σ) : Prop :=
  t.config = s.config ∧ ∀ key, (t.schemas.resolve key).1 = (s.schemas.resolve key).1

theorem Session.SameLayouts.junction_eq {s t : Session σ} (h : s.SameLayouts t) (owner : Schema)
    (name : String) (relation : Relation) :
    t.junction owner name relation = s.junction owner name relation := by
  rw [Session.junction, Session.junction, h.1, h.2]

namespace Action

/-- No operation on records changes a layout. -/
theorem remembering_layouts (d : Driver σ) : Remembering d Session.SameLayouts where
  refl s := ⟨rfl, fun _ => rfl⟩
  trans hst htu := ⟨htu.1.trans hst.1, fun key => (htu.2 key).trans (hst.2 key)⟩
  connect name config s := by
    unfold connect
    dsimp only
    split <;> exact ⟨rfl, fun _ => rfl⟩
  schema key s := ⟨rfl, fun key' => s.schemas.resolve_resolve key key'⟩
  note _ _ := ⟨rfl, fun _ => rfl⟩
  fetch c sql values s := by
    unfold send
    dsimp only
    split <;> exact ⟨rfl, fun _ => rfl⟩
  execute c sql values s := by
    unfold send
    dsimp only
    split <;> exact ⟨rfl, fun _ => rfl⟩
  ask _ _ := ⟨rfl, fun _ => rfl⟩
  remember _ _ := ⟨rfl, fun _ => rfl⟩
  forget _ _ := ⟨rfl, fun _ => rfl⟩

theorem junctionOf_eq_ok {owner target : Schema} {name : String} {relation : Relation}
    {s t : Session σ} {j : Junction} (h : junctionOf owner name relation target s = .ok j t) :
    ∃ start, DatabaseConfig.tablePrefix s.config owner.connection = .ok start ∧
      j = .ofRelation owner name relation target start ∧ t = s := by
  obtain ⟨start, u, hstart, hlast⟩ := bind_eq_ok.1 h
  obtain ⟨htablePrefix, rfl⟩ := tablePrefix_eq_ok.1 hstart
  obtain ⟨rfl, rfl⟩ := pure_eq_ok.1 hlast
  exact ⟨start, htablePrefix, rfl, rfl⟩

theorem layout_of_junctionNamed {owner : Schema} {name : String} {s t : Session σ} {j : Junction}
    (h : junctionNamed owner name s = .ok j t) : ∃ relation,
      owner.relation name = some relation ∧ s.junction owner name relation = .ok j := by
  unfold junctionNamed at h
  cases hrelation : owner.relation name with
  | none =>
    rw [hrelation] at h
    cases h
  | some relation =>
    rw [hrelation] at h
    obtain ⟨target, u, htarget, h⟩ := bind_eq_ok.1 h
    cases htarget
    obtain ⟨start, hstart, rfl, -⟩ := junctionOf_eq_ok h
    refine ⟨relation, rfl, ?_⟩
    have htablePrefix : DatabaseConfig.tablePrefix s.config owner.connection = .ok start := hstart
    rw [Session.junction, htablePrefix]
    rfl

end Action

end RowMapper
