import RowMapper.Naming.Basic

/-! # Relations between models

How the rows of one model belong to the rows of another. Keys that a relation
does not name are derived from the tables' names.
-/

namespace RowMapper

inductive RelationKind where
  /-- One related row, which holds the key. -/
  | hasOne
  /-- Any number of related rows, which hold the key. -/
  | hasMany
  /-- One related row, whose key this row holds. -/
  | belongsTo
  /-- Any number of related rows, linked by the rows of a junction table. -/
  | manyToMany
  deriving DecidableEq, Repr

namespace RelationKind

def all : List RelationKind := [hasOne, hasMany, belongsTo, manyToMany]

def isCollection : RelationKind → Bool
  | hasMany | manyToMany => true
  | _ => false

def needsJunction (k : RelationKind) : Bool := k == manyToMany

/-- Whether conditions may mention the related row's columns. -/
def isJoinable : RelationKind → Bool
  | hasOne | belongsTo => true
  | _ => false

def name : RelationKind → String
  | hasOne => "HAS_ONE"
  | hasMany => "HAS_MANY"
  | belongsTo => "BELONGS_TO"
  | manyToMany => "MANY_TO_MANY"

end RelationKind

/-- What a relation knows of the model that it leads to. -/
structure ModelRef where
  /-- The model's place among all models. -/
  key : Nat
  name : String
  table : String
  primaryKey : String
  deriving DecidableEq, Repr

structure Relation where
  kind : RelationKind
  target : ModelRef
  /-- The key column of the related table. -/
  foreignKey : Option String := none
  /-- The key column of this table. -/
  localKey : Option String := none
  /-- The junction table, without the prefix of the connection. -/
  junctionTable : Option String := none
  /-- Whether the links carry the name of the relation's field. -/
  namesLinks : Bool := true
  deriving DecidableEq, Repr

namespace Relation

/-- The column of this table that holds the related row's key. -/
def localColumn (r : Relation) : String :=
  r.localKey.getD (Naming.foreignKey r.target.table r.target.primaryKey)

/-- The column of the related table that holds the key of the row of an owner. -/
def foreignColumn (r : Relation) (ownerTable ownerKey : String) : String :=
  r.foreignKey.getD (Naming.foreignKey ownerTable ownerKey)

end Relation

end RowMapper
