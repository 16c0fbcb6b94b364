import RowMapper.Schema.Basic
import RowMapper.Query.Build
import RowMapper.Sql.Identifier

/-! # Junction tables

The layout of the table that links the rows of two models, and the difference
between the links that are there and those that are wanted. Links that stay are
never written again.
-/

namespace RowMapper

/-- The table that links the rows of an owner to the rows of a related model. -/
structure Junction where
  table : String
  ownerKey : String
  relatedKey : String
  ownerType : SqlType
  relatedType : SqlType
  /-- The name that the links carry, if they carry one. -/
  slot : Option String
  deriving DecidableEq

namespace Junction

def slotColumn : String := "name"

/-- The layout of an owner's relation; the prefix is that of the owner's connection. -/
def ofRelation (owner : Schema) (field : String) (r : Relation) (target : Schema)
    (start : String) : Junction :=
  let keys := Naming.junctionKeys owner.table owner.primaryKey target.table target.primaryKey
  { table := match r.junctionTable with
      | some table => start ++ table
      | none => Naming.junctionTable (start ++ owner.table) (start ++ target.table) start
    ownerKey := keys.1
    relatedKey := keys.2
    ownerType := owner.keyType
    relatedType := target.keyType
    slot := if r.namesLinks then some field else none }

def columnDefinition (d : Dialect) (column : String) (type : SqlType) : String :=
  Sql.quoteIdentifier d column ++ " " ++ type.definition d ++ " NOT NULL"

def columnDefinitions (j : Junction) (d : Dialect) : List String :=
  [d.autoIncrementKey "id", columnDefinition d j.ownerKey j.ownerType,
    columnDefinition d j.relatedKey j.relatedType] ++
  j.slot.toList.map fun _ => columnDefinition d slotColumn (.varchar 64)

def ownerConditions (j : Junction) (owner : Value) : List (Condition Query) :=
  .key j.ownerKey owner :: j.slot.toList.map fun slot => .key slotColumn (.text slot)

def linkedKeys (j : Junction) (owner : Value) : Query :=
  (({} : Query).fromTables j.table |>.select j.relatedKey).filterAll (j.ownerConditions owner) .and

def linkConditions (j : Junction) (owner : Value) (keys : List Value) : List (Condition Query) :=
  j.ownerConditions owner ++ [.isIn j.relatedKey keys false .and]

def link (j : Junction) (owner key : Value) : Entries Value :=
  Entries.ofPairs ([(j.ownerKey, owner), (j.relatedKey, key)] ++
    j.slot.toList.map fun slot => (slotColumn, .text slot))

end Junction

/-- What has to be linked and what has to be unlinked, so that an owner has the wanted links and no
others. -/
structure LinkChanges where
  added : List Value
  removed : List Value

namespace LinkChanges

def isEmpty (c : LinkChanges) : Bool := c.added.isEmpty && c.removed.isEmpty

/-- Keys without empty ones and without repetitions; the first of equal ones stays. -/
def distinctKeys (seen : List String) : List Value → List Value
  | [] => []
  | v :: vs =>
    if v.isEmpty || seen.contains v.keyString then distinctKeys seen vs
    else v :: distinctKeys (v.keyString :: seen) vs

/-- Whether a key occurs in a list; keys are compared by their text. -/
def hasKey (keys : List Value) (v : Value) : Bool := (keys.map Value.keyString).contains v.keyString

/-- The changes that lead from the present keys to the wanted ones. Of wanted keys with one text the
first counts, and empty ones do not. -/
def between (present wanted : List Value) : LinkChanges :=
  let wanted := distinctKeys [] wanted
  { added := wanted.filter fun v => !hasKey present v
    removed := present.filter fun v => !hasKey wanted v }

end LinkChanges

end RowMapper
