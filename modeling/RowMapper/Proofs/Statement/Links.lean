import RowMapper.Proofs.Statement.Inserts
import RowMapper.Proofs.Statement.Selections
import RowMapper.Relation.Junction

/-! # The statements of a junction table

The links of an owner are read by one statement, and changed by at most two: one
deletes the links of some keys, the other inserts one row for each key. All values are
bound, the owner's key first.
-/

namespace RowMapper.Junction

open Sql Text

/-- A layout with bare names for different columns, none of which has a meaning of its own. -/
structure Plain (j : Junction) : Prop where
  table : IsBare j.table
  ownerKey : IsBare j.ownerKey
  relatedKey : IsBare j.relatedKey
  distinct : j.ownerKey ≠ j.relatedKey
  ownerKey_ne : j.ownerKey ≠ slotColumn
  relatedKey_ne : j.relatedKey ≠ slotColumn
  comparable : Condition.isRawColumn j.ownerKey = false
  slot : ∀ name, j.slot = some name → name ≠ Value.now

theorem isRawColumn_of_mem {column : String} (h : '_' ∈ column.toList) :
    Condition.isRawColumn column = false := by
  have hmem : '_' ∈ (lowerAscii column).toList := by
    rw [lowerAscii, String.toList_ofList]
    exact List.mem_map.2 ⟨'_', h, by decide⟩
  have hne {word : String} (hword : '_' ∉ (lowerAscii word).toList) :
      sameIgnoringAsciiCase column word = false := by
    rw [sameIgnoringAsciiCase, beq_eq_false_iff_ne]
    intro heq
    exact hword (heq ▸ hmem)
  rw [Condition.isRawColumn, hne (by decide), hne (by decide)]
  rfl

theorem mem_foreignKey (table primaryKey : String) :
    '_' ∈ (Naming.foreignKey table primaryKey).toList := by
  simp [Naming.foreignKey]

theorem mem_junctionKeys (ownerTable ownerKey relatedTable relatedKey : String) :
    '_' ∈ (Naming.junctionKeys ownerTable ownerKey relatedTable relatedKey).1.toList ∧
      '_' ∈ (Naming.junctionKeys ownerTable ownerKey relatedTable relatedKey).2.toList := by
  simp only [Naming.junctionKeys]
  split
  · exact ⟨mem_foreignKey _ _, by simp [mem_foreignKey]⟩
  · exact ⟨mem_foreignKey _ _, mem_foreignKey _ _⟩

/-- The columns of a relation's junction table differ, and none is the one for the name. -/
theorem ofRelation_columns {j : Junction} {owner target : Schema} {field start : String}
    {r : Relation} (hj : j = ofRelation owner field r target start) :
    j.ownerKey ≠ j.relatedKey ∧ j.ownerKey ≠ slotColumn ∧ j.relatedKey ≠ slotColumn ∧
      Condition.isRawColumn j.ownerKey = false := by
  have hne {column : String} (h : '_' ∈ column.toList) : column ≠ slotColumn := by
    rintro rfl
    exact absurd h (by decide)
  have hmem := mem_junctionKeys owner.table owner.primaryKey target.table target.primaryKey
  have hdistinct :=
    Naming.junctionKeys_ne owner.table owner.primaryKey target.table target.primaryKey
  unfold ofRelation at hj
  generalize Naming.junctionKeys owner.table owner.primaryKey target.table target.primaryKey =
    keys at hj hmem hdistinct
  subst hj
  exact ⟨hdistinct, hne hmem.1, hne hmem.2, isRawColumn_of_mem hmem.1⟩

theorem plain_ofRelation {owner target : Schema} {field start : String} {r : Relation}
    (htable : IsBare (ofRelation owner field r target start).table)
    (howner : IsBare (ofRelation owner field r target start).ownerKey)
    (hrelated : IsBare (ofRelation owner field r target start).relatedKey)
    (hfield : IsBare field) : (ofRelation owner field r target start).Plain := by
  obtain ⟨hdistinct, hownerKey, hrelatedKey, hcomparable⟩ :=
    ofRelation_columns (rfl : ofRelation owner field r target start = _)
  refine ⟨htable, howner, hrelated, hdistinct, hownerKey, hrelatedKey, hcomparable, ?_⟩
  rintro name hname rfl
  dsimp only [ofRelation] at hname
  split at hname
  · cases hname
    exact absurd hfield (by decide)
  · cases hname

/-! ## What is sent -/

def slotValues (j : Junction) : List Value := j.slot.toList.map .text

def columns (j : Junction) : List String :=
  [j.ownerKey, j.relatedKey] ++ j.slot.toList.map fun _ => slotColumn

def linkValues (j : Junction) (owner key : Value) : List Value := [owner, key] ++ j.slotValues

/-- The conditions on the links of an owner, for columns that are written after a text. -/
def ownerTexts (d : Dialect) (start : String) (j : Junction) : List String :=
  (start ++ quoteIdentifier d j.ownerKey ++ " = " ++ d.mark 0) ::
    j.slot.toList.map fun _ => start ++ quoteIdentifier d slotColumn ++ " = " ++ d.mark 1

def selectText (d : Dialect) (j : Junction) : String :=
  "SELECT " ++ quoteIdentifier d j.relatedKey ++ " FROM " ++ quoteIdentifier d j.table ++
    " WHERE " ++ conjunction [conjunction (j.ownerTexts d (quoteIdentifier d j.table ++ "."))]

def deleteText (d : Dialect) (j : Junction) (count : Nat) : String :=
  "DELETE FROM " ++ quoteIdentifier d j.table ++ " WHERE " ++ conjunction (j.ownerTexts d "" ++
    [quoteIdentifier d j.relatedKey ++ " IN (" ++
      join ", " (markRow d (1 + j.slotValues.length) count) ++ ")"])

def insertText (d : Dialect) (j : Junction) (count : Nat) : String :=
  "INSERT INTO " ++ quoteIdentifier d j.table ++ " (" ++
    join ", " (j.columns.map (quoteIdentifier d)) ++ ") VALUES " ++
    join ", " ((List.range count).map fun i =>
      parenthesized (join ", " (markRow d (i * j.columns.length) j.columns.length)))

variable {j : Junction} {owner : Value}

/-! ## Conditions on the links of an owner -/

theorem ownerConditions_binds (hj : j.Plain) (howner : owner ≠ .null) {scope : Scope}
    {start : String} (hscope : ∀ {name}, IsBare name →
      scope.qualify name = start ++ quoteIdentifier scope.dialect name)
    (hstart : Seals start [] 0) {cs : List (Condition Query)} {ws : List Value}
    {texts : List String} (hrest : Binds (renderConditions scope cs) ws fun clauses =>
      Conjoined scope.dialect (1 + j.slotValues.length) clauses
        (1 + j.slotValues.length + ws.length) texts) :
    Binds (renderConditions scope (j.ownerConditions owner ++ cs))
      (owner :: j.slotValues ++ ws) fun clauses => Conjoined scope.dialect 0 clauses
        (owner :: j.slotValues ++ ws).length (j.ownerTexts scope.dialect start ++ texts) := by
  have hseals {name : String} (hname : IsBare name) : Seals (scope.qualify name) [] 0 := by
    rw [hscope hname]
    exact hstart.append (seals_quoteIdentifier scope.dialect name)
  have hname : IsBare slotColumn := by decide
  have hkey := conditionBinds_key hj.comparable howner (hseals hj.ownerKey) 0
  rw [hscope hj.ownerKey] at hkey
  have hrest' : Binds (renderConditions scope
      ((j.slot.toList.map fun slot => .key slotColumn (.text slot)) ++ cs)) (j.slotValues ++ ws)
      fun clauses => Conjoined scope.dialect 1 clauses (1 + (j.slotValues ++ ws).length)
        ((j.slot.toList.map fun _ => start ++ quoteIdentifier scope.dialect slotColumn ++ " = " ++
          scope.dialect.mark 1) ++ texts) := by
    cases hslot : j.slot with
    | none => simpa [slotValues, hslot] using hrest
    | some slot =>
      have hcondition : ConditionBinds scope 1 (.key slotColumn (.text slot)) [.text slot] _ :=
        conditionBinds_key (by decide) (by simp) (hseals hname) 1
      rw [hscope hname] at hcondition
      rw [slotValues, hslot] at hrest ⊢
      exact renderConditions_cons_binds hcondition hrest
  have hall := renderConditions_cons_binds hkey hrest'
  rw [Nat.zero_add] at hall
  exact hall

/-! ## The statements -/

/-- The statement that deletes links binds the owner's key, the name and the keys in order. -/
theorem deletion_sent (hj : j.Plain) (howner : owner ≠ .null) (d : Dialect) {keys : List Value}
    (hkeys : keys ≠ []) :
    ∃ statement, deletion d j.table (j.linkConditions owner keys) = .ok statement ∧
      statement.toPositional d =
        .ok (j.deleteText d keys.length, owner :: j.slotValues ++ keys) := by
  have hscope {name : String} (hname : IsBare name) :
      ({ dialect := d } : Scope).qualify name = "" ++ quoteIdentifier d name := by
    rw [hname.qualify_eq, String.empty_append]
  have hseals : Seals (({ dialect := d } : Scope).qualify j.relatedKey) [] 0 := by
    rw [hscope hj.relatedKey, String.empty_append]
    exact seals_quoteIdentifier d j.relatedKey
  have hmember := conditionBinds_isIn hkeys hseals (1 + j.slotValues.length)
  rw [hscope hj.relatedKey, String.empty_append] at hmember
  have hlast := renderConditions_cons_binds hmember (renderConditions_nil_binds _ _)
  rw [List.append_nil] at hlast
  have hconditions := ownerConditions_binds hj howner hscope seals_empty hlast
  have hwhere := renderWhere_binds (by simp) hconditions
  have hhead := (seals_quoteIdentifier d j.table).prepend (a := "DELETE FROM ") (by decide)
  refine Binds.positional (hwhere.map fun condition hcondition => ?_)
  unfold deleteText
  simpa only [hj.table.quoteQualified_eq, String.append_assoc] using hcondition.after hhead

theorem linkedKeys_eq (hj : j.Plain) (owner : Value) : j.linkedKeys owner =
    { columns := [.column j.relatedKey], sources := [.table j.table],
      wheres := [.group (j.ownerConditions owner) .and] } := by
  simp [linkedKeys, Query.fromTables, Query.select, Query.filterAll, Query.filter,
    hj.table.listed_eq, hj.relatedKey.listed_eq, ownerConditions]

/-- The statement that reads the linked keys binds the owner's key and the name. -/
theorem ofQuery_linkedKeys_sent (hj : j.Plain) (howner : owner ≠ .null) (d : Dialect) :
    ∃ statement, Statement.ofQuery d (j.linkedKeys owner) = .ok statement ∧
      statement.toPositional d = .ok (j.selectText d, owner :: j.slotValues) := by
  let scope : Scope := { dialect := d, table := some j.table }
  have hscope {name : String} (hname : IsBare name) :
      scope.qualify name = quoteIdentifier d j.table ++ "." ++ quoteIdentifier d name := by
    rw [hname.qualify_eq, ← hj.table.quoteQualified_eq]
  have hstart := (seals_quoteIdentifier d j.table).close (a := ".") (by decide)
  have hconditions := ownerConditions_binds hj howner hscope hstart
    (renderConditions_nil_binds scope _)
  simp only [List.append_nil] at hconditions
  have hgroup : ConditionBinds scope 0 (.group (j.ownerConditions owner) .and)
      (owner :: j.slotValues) (conjunction (j.ownerTexts d (quoteIdentifier d j.table ++ "."))) :=
    conditionBinds_group (by simp [ownerTexts]) (by simpa only [Nat.zero_add] using hconditions)
  have hwheres := renderConditions_cons_binds hgroup (renderConditions_nil_binds scope _)
  simp only [List.append_nil, Nat.zero_add] at hwheres
  rw [linkedKeys_eq hj]
  exact (renderQuery_column_binds hj.relatedKey hj.table (by simp) hwheres).positional

/-! ## The insert -/

theorem link_eq_of_ne (hdistinct : j.ownerKey ≠ j.relatedKey) (howner : j.ownerKey ≠ slotColumn)
    (hrelated : j.relatedKey ≠ slotColumn) (owner key : Value) :
    j.link owner key = (j.ownerKey, owner) :: (j.relatedKey, key) ::
      j.slot.toList.map fun slot => (slotColumn, .text slot) := by
  cases hslot : j.slot <;>
    simp [link, hslot, Entries.ofPairs, Entries.put, hdistinct, howner, hrelated]

theorem link_eq (hj : j.Plain) (owner key : Value) :
    j.link owner key = (j.ownerKey, owner) :: (j.relatedKey, key) ::
      j.slot.toList.map fun slot => (slotColumn, .text slot) :=
  link_eq_of_ne hj.distinct hj.ownerKey_ne hj.relatedKey_ne owner key

theorem rowCells_link (hj : j.Plain) (owner key : Value) :
    rowCells j.columns (j.link owner key) = j.linkValues owner key := by
  rw [link_eq hj]
  cases hslot : j.slot <;>
    simp [rowCells, columns, linkValues, slotValues, hslot, Entries.get?_cons, hj.distinct,
      hj.ownerKey_ne, hj.relatedKey_ne]

theorem insertColumns_link (hj : j.Plain) {key : Value} (howner : owner ≠ .null)
    (hkey : key ≠ .null) : insertColumns {} (j.link owner key) = j.columns := by
  have hwritten {v : Value} (hv : v ≠ .null) : isWritten false v = true := by
    cases v <;> first | rfl | exact absurd rfl hv
  rw [link_eq hj]
  cases hslot : j.slot <;>
    simp [insertColumns, columns, hslot, hwritten howner, hwritten hkey, hwritten]

theorem inlineText?_linkValues (hj : j.Plain) {d : Dialect} {key v : Value}
    (howner : inlineText? d owner = none) (hkey : inlineText? d key = none)
    (hv : v ∈ j.linkValues owner key) : inlineText? d v = none := by
  simp only [linkValues, slotValues, List.cons_append, List.nil_append, List.mem_cons,
    List.mem_map, Option.mem_toList] at hv
  rcases hv with rfl | rfl | ⟨name, hname, rfl⟩
  · exact howner
  · exact hkey
  · exact if_neg (hj.slot name hname)

/-- The statement that links keys binds the owner's key, the key and the name for each key in
order. -/
theorem insertion_links_sent (hj : j.Plain) {d : Dialect} {keys : List Value}
    (howner : inlineText? d owner = none) (hkeys : ∀ key ∈ keys, inlineText? d key = none)
    (hne : keys ≠ []) :
    ∃ statement, insertion d j.table (keys.map (j.link owner)) {} = .ok (some statement) ∧
      statement.toPositional d =
        .ok (j.insertText d keys.length, keys.flatMap (j.linkValues owner)) := by
  have hnull {v : Value} (hv : inlineText? d v = none) : v ≠ .null := by
    rintro rfl
    cases hv
  cases keys with
  | nil => exact absurd rfl hne
  | cons key keys =>
    have hcolumns := insertColumns_link hj (hnull howner) (hnull (hkeys key List.mem_cons_self))
    have hbound : ∀ row ∈ (key :: keys).map (j.link owner), ∀ v ∈ rowCells j.columns row,
        inlineText? d v = none := by
      intro row hrow v hv
      obtain ⟨key', hkey', rfl⟩ := List.mem_map.1 hrow
      rw [rowCells_link hj] at hv
      exact inlineText?_linkValues hj howner (hkeys key' hkey') hv
    have hconflict : conflictText d {} = .ok "" := rfl
    obtain ⟨statement, hstatement, hsent⟩ := insertion_sent j.table (j.link owner key)
      (keys.map (j.link owner)) hconflict (by rw [hcolumns]; simp [columns])
    refine ⟨statement, hstatement, hsent.trans ?_⟩
    have hvalues : insertedValues d j.columns ((key :: keys).map (j.link owner)) =
        (key :: keys).flatMap (j.linkValues owner) := by
      rw [insertedValues_eq_flatMap hbound, List.flatMap_map]
      exact List.flatMap_congr fun key' _ => rowCells_link hj owner key'
    have htext : sentInsert d j.table j.columns ((key :: keys).map (j.link owner)) {} "" =
        j.insertText d (key :: keys).length := by
      unfold sentInsert rowsText insertText
      rw [tupleTexts_eq_marks hbound, hj.table.quoteQualified_eq]
      simp [returningText, columns, String.append_assoc]
    rw [hcolumns, ← List.map_cons, hvalues, htext]

end RowMapper.Junction
