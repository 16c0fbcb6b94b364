import RowMapper.Proofs.Record.Changes
import RowMapper.Proofs.Schema.Declarations

/-! # The two stores of a record's values

The values of columns are kept apart from those of names that the model does not
declare. A relation whose key this row holds writes its key among the columns, whether
the model declares that column or not. An assignment to the undeclared name of such a
column writes it among the other names and leaves the column's value where it is, so
that the record has both. Without such a relation no record has a name twice, and what is
assigned to a name is what is read of it.
-/

namespace RowMapper

open Run

namespace Record

/-- No name has a value in both stores. -/
def Apart (r : Record) : Prop := ∀ name, r.data.has name = true → r.extra.get? name = none

/-- After a value was assigned to a name that is no relation, every way of reading the name gives
one value, and so does the row that an insert writes, if it has the name: its values are `data`. -/
def ReadsBack (r : Record) : Prop :=
  ∀ name v s, (∀ kind, r.schema.access name ≠ some (.relation kind)) →
    Edit.assign name (.scalar v) r = .ok () s → ∃ w, s.value? name = some w ∧
      s.fieldValue name = .ok (.ofValue w) ∧
      (s.data.has name = true → s.data.get? name = some w)

inductive Fresh (schema : Schema) : Record → Prop
  | new (filter : ImportFilter) : Fresh schema (.new schema filter)
  | loaded (row : Row) (filter : ImportFilter) : Fresh schema (.ofRow schema row filter)

/-- Assignments write to served columns only, if the model serves those of its keys. -/
theorem access_ne_none_of_writes {schema : Schema} {name : String} (hcoherent : schema.Coherent)
    (hkeys : schema.ServesKeys) (h : schema.Writes name) : schema.access name ≠ none := by
  cases h with
  | column hname =>
    rw [Schema.hasColumn, decide_eq_true_eq] at hname
    simp [hname]
  | @key field relation haccess hrelation hkind =>
    obtain ⟨kind, haccess⟩ := haccess
    exact hkeys field relation (hcoherent.belongsTo haccess hrelation hkind)

/-- The names among the columns are served, and no name has a value in both stores. -/
structure Sorted (s : Schema) (r : Record) : Prop where
  schema : r.schema = s
  served : ∀ name, r.data.has name = true → s.access name ≠ none
  apart : r.Apart

variable {schema : Schema} {r s : Record} {name : String} {v : Value}

theorem Sorted.of_same (h : Sorted schema r) (hschema : s.schema = r.schema)
    (hdata : s.data = r.data) (hextra : s.extra = r.extra) : Sorted schema s where
  schema := hschema.trans h.schema
  served name hname := h.served name (hdata ▸ hname)
  apart name hname := by
    rw [hextra]
    exact h.apart name (hdata ▸ hname)

theorem Sorted.putData (h : Sorted schema r) (hname : schema.access name ≠ none) (v : Value) :
    Sorted schema (r.putData name v) := by
  have hold {other : String} (hne : name ≠ other)
      (hother : (r.putData name v).data.has other = true) : r.data.has other = true := by
    simpa [Record.putData, Entries.has_put, hne] using hother
  refine ⟨h.schema, fun other hother => ?_, fun other hother => ?_⟩
  · by_cases hsame : name = other
    · exact hsame ▸ hname
    · exact h.served other (hold hsame hother)
  · by_cases hsame : name = other
    · subst hsame
      exact Entries.get?_erase_self _ _
    · exact (Entries.get?_erase_of_ne _ hsame).trans (h.apart other (hold hsame hother))

theorem Sorted.putExtra (h : Sorted schema r) (hname : schema.access name = none) (v : Value) :
    Sorted schema { r with extra := r.extra.put name v } := by
  refine ⟨h.schema, h.served, fun other hother => ?_⟩
  have hne : name ≠ other := by
    rintro rfl
    exact h.served name hother hname
  exact (Entries.get?_put_of_ne _ _ hne).trans (h.apart other hother)

/-- If a model serves the columns of its keys, writes leave its records sorted. -/
theorem acrossWrites_sorted (hcoherent : schema.Coherent) (hkeys : schema.ServesKeys) :
    AcrossWrites fun r s => Sorted schema r → Sorted schema s where
  refl _ := id
  trans h h' := h' ∘ h
  remember r name before h := by
    unfold remember
    split
    · exact h
    · exact h.of_same rfl rfl rfl
  putData _ _ v hname h :=
    h.putData (access_ne_none_of_writes hcoherent hkeys (h.schema ▸ hname)) v
  putExtra _ _ v hname h := h.putExtra (h.schema ▸ hname) v
  relate _ _ h := h.of_same rfl rfl rfl
  link _ _ _ h := h.of_same rfl rfl rfl

theorem Sorted.of_fresh (hcoherent : schema.Coherent) (h : Fresh schema r) :
    Sorted schema r := by
  cases h with
  | new filter =>
    refine ⟨rfl, fun name hname => ?_, fun _ _ => rfl⟩
    obtain ⟨entry, hentry, rfl⟩ := List.mem_map.1 (Entries.mem_names_iff.2 hname)
    obtain ⟨f, hf, hdefault⟩ := List.mem_filterMap.1 hentry
    obtain ⟨v, -, rfl⟩ := Option.map_eq_some_iff.1 hdefault
    exact hcoherent.access_ne_none (List.mem_filter.1 hf).1
  | loaded row filter =>
    have hloaded := loaded_ofRow schema row filter
    have hcolumn {name : String} (hname : (ofRow schema row filter).data.has name = true) :
        schema.hasColumn name = true := by
      obtain ⟨v, hdata⟩ := Option.isSome_iff_exists.1 hname
      exact hloaded.hasColumn hdata
    refine ⟨hloaded.schema, fun name hname => ?_, fun name hname =>
      hloaded.extra name (hcolumn hname)⟩
    have hserved := hcolumn hname
    rw [Schema.hasColumn, decide_eq_true_eq] at hserved
    simp [hserved]

/-! ## Reading what was assigned -/

theorem exists_get?_storeCoerced (r : Record) (name : String) (v : Value) :
    ∃ w, (r.storeCoerced name v).data.get? name = some w := by
  have hstore (w : Value) (unchanged : Bool) :
      ∃ u, (r.store name w unchanged).data.get? name = some u := by
    unfold store
    split
    · next h =>
      rw [Bool.and_eq_true] at h
      exact Option.isSome_iff_exists.1 h.2
    · exact ⟨w, Entries.get?_put_self _ _ _⟩
  unfold storeCoerced
  split
  · exact hstore _ _
  · exact hstore _ _

theorem voided_storeCoerced (r : Record) (name : String) (v : Value) :
    (r.storeCoerced name v).voided = r.voided := by
  obtain ⟨_, _, _, h⟩ := r.changesRow_storeCoerced name v
  rw [h]

/-- A sorted record reads back what is assigned to it. -/
theorem Sorted.readsBack (h : Sorted schema r) : r.ReadsBack := by
  intro name v s hname hassign
  obtain ⟨hlive, ⟨haccess, rfl⟩ | ⟨haccess, rfl⟩⟩ := Edit.assign_scalar_cases hname hassign
  · obtain ⟨w, hw⟩ := r.exists_get?_storeCoerced name v
    have hschema := (r.changesRow_storeCoerced name v).schema
    refine ⟨w, by rw [value?, hw, Option.some_or], ?_, fun _ => hw⟩
    rw [fieldValue, ensureLive_of_live (hlive ▸ r.voided_storeCoerced name v), hschema, haccess, hw]
    rfl
  · have hnone : r.data.get? name = none := by
      cases hdata : r.data.get? name with
      | none => rfl
      | some w =>
        have hserved := h.served name (by rw [Entries.has, hdata]; rfl)
        exact absurd (h.schema ▸ haccess) hserved
    have hput : (r.extra.put name v).get? name = some v := Entries.get?_put_self _ _ _
    refine ⟨v, ?_, ?_, fun hhas => ?_⟩
    · rw [value?, hnone, hput, Option.none_or]
    · rw [fieldValue, ensureLive, hlive, haccess, hput]
      rfl
    · rw [Entries.has, hnone] at hhas
      cases hhas

/-! ## Keys that are written under a name that is not served -/

/-- After a key was assigned to a relation and another to its column, the column's name has both, if
it is not served. -/
theorem not_apart_of_unserved {relation : Relation} (h : r.schema.BelongsTo name relation)
    (hunserved : r.schema.access relation.localColumn = none) (hlive : r.voided = false)
    (key other : Value) : ¬ (Edit.afterCalls [.set name (.scalar key),
      .set relation.localColumn (.scalar other)] r).Apart := by
  let t := (r.storeCoerced relation.localColumn key).forget name
  have hfirst : Edit.assign name (.scalar key) r = .ok () t :=
    Edit.assign_ownerKey hlive ⟨_, h.access⟩ h.declared h.kind key
  have hschema : t.schema = r.schema := (r.changesRow_storeCoerced _ key).schema
  have hlive' : t.voided = false := (r.voided_storeCoerced _ key).trans hlive
  have hsecond : Edit.assign relation.localColumn (.scalar other) t =
      .ok () { t with extra := t.extra.put relation.localColumn other } :=
    Edit.assign_undeclared hlive' (hschema ▸ hunserved) other
  obtain ⟨w, hw⟩ := r.exists_get?_storeCoerced relation.localColumn key
  have hrun : Edit.afterCalls [.set name (.scalar key),
      .set relation.localColumn (.scalar other)] r =
        { t with extra := t.extra.put relation.localColumn other } := by
    change final (Edit.assign relation.localColumn (.scalar other)
      (final (Edit.assign name (.scalar key) r))) = _
    rw [hfirst]
    change final (Edit.assign relation.localColumn (.scalar other) t) = _
    rw [hsecond]
    rfl
  intro hapart
  rw [hrun] at hapart
  have hdata : t.data.has relation.localColumn = true := by
    rw [Entries.has, show t.data.get? relation.localColumn = some w from hw]
    rfl
  have hextra := hapart relation.localColumn hdata
  rw [show ({ t with extra := t.extra.put relation.localColumn other } : Record).extra.get?
    relation.localColumn = some other from Entries.get?_put_self _ _ _] at hextra
  cases hextra

/-- The records of a declared model never have a name in both stores, and after any calls read back
what is assigned to a name that is no relation, just when the model serves the column of each key
that its rows hold. -/
theorem consistent_iff (hschema : schema.Built) :
    (∀ start, Fresh schema start → ∀ calls, (Edit.afterCalls calls start).Apart ∧
      (Edit.afterCalls calls start).ReadsBack) ↔ schema.ServesKeys := by
  have hcoherent := hschema.coherent
  constructor
  · intro h name relation hrelation hunserved
    have hnew := (h (.new schema) (.new .passThrough)
      [.set name (.scalar (.int64 1)), .set relation.localColumn (.scalar (.int64 2))]).1
    exact not_apart_of_unserved hrelation hunserved rfl _ _ hnew
  · intro hkeys start hstart calls
    have hsorted : Sorted schema (Edit.afterCalls calls start) :=
      (Edit.Assigned.start.afterCalls calls).across (acrossWrites_sorted hcoherent hkeys)
        (.of_fresh hcoherent hstart)
    exact ⟨hsorted.apart, hsorted.readsBack⟩

def poemWriter : Relation :=
  { kind := .belongsTo, target := (Schema.new "Writer" "writers").ref 1,
    localKey := some "writer_id" }

def barePoem : Schema := (Schema.new "Poem" "poems").withRelation "writer" poemWriter

def fullPoem : Schema :=
  ((Schema.new "Poem" "poems").withColumn "writer_id" .bigInt).withRelation "writer" poemWriter

theorem built_barePoem : barePoem.Built := .declare (.new "Poem" "poems") _

theorem built_fullPoem : fullPoem.Built := .declare (.declare (.new "Poem" "poems") _) _

theorem servesKeys_fullPoem : fullPoem.ServesKeys := by
  have hcolumn := (Schema.servesKeys_new "Poem" "poems").declare
    { name := "writer_id", type := .bigInt } nofun
  refine hcolumn.declare _ ?_
  rintro relation ⟨⟩ -
  decide +kernel

/-- A poem of the full model whose writer is assigned by key, through the relation and then
through the column. -/
theorem fullPoem_consistent : fullPoem.Built ∧
    (Edit.afterCalls [.set "writer" (.scalar (.int64 1)),
      .set "writer_id" (.scalar (.int64 2))] (.new fullPoem .passThrough)).Apart ∧
    (Edit.afterCalls [.set "writer" (.scalar (.int64 1)),
      .set "writer_id" (.scalar (.int64 2))] (.new fullPoem .passThrough)).ReadsBack :=
  ⟨built_fullPoem,
    (consistent_iff built_fullPoem).2 servesKeys_fullPoem _ (.new .passThrough) _⟩

/-- A poem of the bare model whose writer was assigned by key. -/
def writtenPoem : Record :=
  Edit.afterCalls [.set "writer" (.scalar (.int64 1))] (.new barePoem .passThrough)

/-- What is assigned to the column is read of it as a field, but the poem is inserted with the
former key. -/
theorem writtenPoem_inconsistent : barePoem.Built ∧ ¬ writtenPoem.ReadsBack ∧
    ∃ r, Edit.assign "writer_id" (.scalar (.int64 2)) writtenPoem = .ok () r ∧ ¬ r.Apart ∧
      r.fieldValue "writer_id" = .ok (.scalar (.int64 2)) ∧
      r.value? "writer_id" = some (.int64 1) ∧ r.data.get? "writer_id" = some (.int64 1) := by
  have haccess : writtenPoem.schema.access "writer_id" = none := by decide +kernel
  have hassign : Edit.assign "writer_id" (.scalar (.int64 2)) writtenPoem = .ok ()
      { writtenPoem with extra := writtenPoem.extra.put "writer_id" (.int64 2) } :=
    Edit.assign_undeclared rfl haccess _
  have hhas : writtenPoem.data.has "writer_id" = true := rfl
  refine ⟨built_barePoem, fun hreads => ?_, _, hassign, fun hapart => ?_, rfl, rfl, rfl⟩
  · obtain ⟨w, hw, hread, -⟩ :=
      hreads "writer_id" (.int64 2) _ (fun kind => by rw [haccess]; nofun) hassign
    obtain rfl : Value.int64 1 = w := Option.some.inj hw
    cases hread
  · exact nomatch hapart "writer_id" hhas

end Record

end RowMapper
