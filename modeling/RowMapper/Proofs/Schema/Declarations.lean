import RowMapper.Schema.Basic

/-! # Declared schemas

A schema comes from declarations, one after another. However they replace each other, a
name is served as its field says or by a computed field, and each field stands under its
own name. A model whose relations are declared after the columns of their keys serves
those columns, and further declarations keep them served.
-/

namespace RowMapper

theorem Field.access_ne_computed (f : Field) : f.access ≠ .computed := by
  unfold access
  split <;> nofun

namespace Schema

structure BelongsTo (s : Schema) (name : String) (relation : Relation) : Prop where
  access : s.access name = some (.relation .belongsTo)
  declared : s.relation name = some relation
  kind : relation.kind = .belongsTo

def ServesKeys (s : Schema) : Prop :=
  ∀ name relation, s.BelongsTo name relation → s.access relation.localColumn ≠ none

/-- The schemas that declarations lead to. -/
inductive Built : Schema → Prop
  | new (name table : String) : Built (.new name table)
  | keyedBy {s : Schema} (h : Built s) (column : String) (type : SqlType) :
      Built (s.keyedBy column type)
  | onConnection {s : Schema} (h : Built s) (name : String) : Built (s.onConnection name)
  | declare {s : Schema} (h : Built s) (f : Field) : Built (s.declare f)
  | withComputed {s : Schema} (h : Built s) (name : String) (compute : Values → Value) :
      Built (s.withComputed name compute)
  | withValidator {s : Schema} (h : Built s)
      (check : Values → ValidationErrors → ValidationErrors) : Built (s.withValidator check)

/-- Names are served as their fields say, unless they are computed, and fields stand under their own
names. -/
structure Coherent (s : Schema) : Prop where
  served : ∀ name, s.access name = some .computed ∨ s.access name = (s.field name).map Field.access
  named : ∀ entry ∈ s.fields, entry.2.name = entry.1

variable {s : Schema} {name : String}

theorem Coherent.declare (h : s.Coherent) (f : Field) : (s.declare f).Coherent where
  served name := by
    by_cases hname : f.name = name
    · subst hname
      simp
    · rw [access_declare_of_ne s f hname, field_declare_of_ne s f hname]
      exact h.served name
  named entry hentry := by
    rcases Entries.mem_put hentry with hold | rfl
    · exact h.named entry hold
    · rfl

theorem Coherent.withoutKey (h : s.Coherent) (column key : String) : Coherent { s with
    primaryKey := column
    fields := s.fields.erase key
    dispatch := s.dispatch.erase key } where
  served name := by
    unfold access field
    by_cases hname : key = name
    · subst hname
      rw [Entries.get?_erase_self, Entries.get?_erase_self]
      exact .inr rfl
    · rw [Entries.get?_erase_of_ne _ hname, Entries.get?_erase_of_ne _ hname]
      exact h.served name
  named entry hentry := h.named entry (List.mem_filter.1 hentry).1

theorem Coherent.withComputed (h : s.Coherent) (name : String) (compute : Values → Value) :
    (s.withComputed name compute).Coherent where
  served other := by
    by_cases hname : name = other
    · subst hname
      exact .inl (Entries.get?_put_self _ _ _)
    · have hsame : (s.withComputed name compute).access other = s.access other :=
        Entries.get?_put_of_ne _ _ hname
      rw [hsame]
      exact h.served other
  named := h.named

/-- The run: declarations lead to coherent schemas. -/
theorem Built.coherent (h : s.Built) : s.Coherent := by
  induction h with
  | new name table =>
    have hempty : Coherent { name, table } := ⟨fun _ => .inr rfl, fun _ h => nomatch h⟩
    exact hempty.declare _
  | @keyedBy s _ column type ih =>
    unfold Schema.keyedBy
    dsimp only
    split
    · exact ih.declare _
    · exact (ih.withoutKey column s.primaryKey).declare _
  | onConnection _ name ih => exact ⟨ih.served, ih.named⟩
  | declare _ f ih => exact ih.declare f
  | withComputed _ name compute ih => exact ih.withComputed name compute
  | withValidator _ check ih => exact ⟨ih.served, ih.named⟩

theorem Coherent.field_eq_none (h : s.Coherent) (hname : s.access name = none) :
    s.field name = none := by
  rcases h.served name with hcomputed | hfield
  · rw [hname] at hcomputed
    cases hcomputed
  · rw [hname] at hfield
    exact Option.map_eq_none_iff.1 hfield.symm

theorem Coherent.access_ne_none (h : s.Coherent) {f : Field} (hf : f ∈ s.fieldList) :
    s.access f.name ≠ none := by
  obtain ⟨entry, hentry, rfl⟩ := List.mem_map.1 hf
  have hmem : entry.2.name ∈ s.fields.names :=
    List.mem_map.2 ⟨entry, hentry, (h.named entry hentry).symm⟩
  intro hnone
  have hhas := Entries.mem_names_iff.1 hmem
  rw [Entries.has, show s.fields.get? entry.2.name = none from h.field_eq_none hnone] at hhas
  cases hhas

theorem Coherent.belongsTo (h : s.Coherent) {relation : Relation} {kind : RelationKind}
    (haccess : s.access name = some (.relation kind)) (hdeclared : s.relation name = some relation)
    (hkind : relation.kind = .belongsTo) : s.BelongsTo name relation := by
  refine ⟨?_, hdeclared, hkind⟩
  obtain ⟨f, hf, hrelation⟩ := Option.bind_eq_some_iff.1 hdeclared
  rcases h.served name with hcomputed | hfield
  · rw [haccess] at hcomputed
    cases hcomputed
  · rw [hfield, hf]
    simp [Field.access, hrelation, hkind]

/-! ## Models that serve the columns of their keys -/

theorem access_declare_ne_none (h : s.access name ≠ none) (f : Field) :
    (s.declare f).access name ≠ none := by
  by_cases hname : f.name = name
  · subst hname
    simp
  · rwa [access_declare_of_ne s f hname]

/-- The step: a declared relation has its key's column served before. -/
theorem ServesKeys.declare (h : s.ServesKeys) (f : Field)
    (hkey : ∀ relation, f.relation = some relation → relation.kind = .belongsTo →
      s.access relation.localColumn ≠ none) : (s.declare f).ServesKeys := by
  intro name relation hrelation
  by_cases hname : f.name = name
  · subst hname
    have hdeclared : f.relation = some relation := by
      rw [← hrelation.declared, Schema.relation, field_declare_self, Option.bind_some]
    exact access_declare_ne_none (hkey relation hdeclared hrelation.kind) f
  · have hold : s.BelongsTo name relation := by
      refine ⟨?_, ?_, hrelation.kind⟩
      · rw [← hrelation.access, access_declare_of_ne s f hname]
      · rw [← hrelation.declared, Schema.relation, Schema.relation, field_declare_of_ne s f hname]
    exact access_declare_ne_none (h name relation hold) f

theorem servesKeys_new (name table : String) : (Schema.new name table).ServesKeys := by
  have hempty : ServesKeys { name, table } := fun _ _ h => nomatch h.declared
  exact hempty.declare _ nofun

end Schema

end RowMapper
