import RowMapper.Relation.Basic
import RowMapper.Schema.SqlType
import RowMapper.Value.Basic
import RowMapper.Error

/-! # Schemas

The fields of a model: columns, relations and computed values. A dispatch table
says of each name how it is served. A later declaration of a name replaces an
earlier one in that table.
-/

namespace RowMapper

inductive Access where
  | column
  | relation (kind : RelationKind)
  | computed
  deriving DecidableEq, Repr

structure Field where
  name : String
  type : SqlType
  nullable : Bool := true
  default : Option Value := none
  relation : Option Relation := none
  /-- Whether bulk assignment leaves the field alone. -/
  guarded : Bool := false

namespace Field

def ofRelation (name : String) (relation : Relation) : Field :=
  { name, type := .bigInt, relation := some relation }

def isColumn (f : Field) : Bool := f.relation.isNone

def access (f : Field) : Access :=
  match f.relation with
  | some relation => .relation relation.kind
  | none => .column

end Field

/-- The values of a record by name, as computed fields and validators see them. -/
abbrev Values := String → Option Value

/-- A model: its table and its fields. How a name is read and assigned is decided by `dispatch`, in
which the latest declaration of the name counts. -/
structure Schema where
  name : String
  /-- The table, without the prefix of the connection. -/
  table : String
  primaryKey : String := "id"
  connection : String := "default"
  fields : Entries Field := []
  computed : Entries (Values → Value) := []
  validators : List (Values → ValidationErrors → ValidationErrors) := []
  /-- How each name is served. -/
  dispatch : Entries Access := []

namespace Schema

/-- Declare a field; a field of that name is replaced where it stands. -/
def declare (s : Schema) (f : Field) : Schema :=
  { s with
    dispatch := s.dispatch.put f.name f.access
    fields := s.fields.put f.name f }

/-- A model with the key `id` on the primary connection. -/
def new (name table : String) : Schema :=
  declare { name, table } { name := "id", type := .bigInt }

/-- Declare another primary key; the field of the former one goes. -/
def keyedBy (s : Schema) (column : String) (type : SqlType) : Schema :=
  let s := if s.primaryKey = column then s
    else { s with
      primaryKey := column
      fields := s.fields.erase s.primaryKey
      dispatch := s.dispatch.erase s.primaryKey }
  s.declare { name := column, type }

def onConnection (s : Schema) (name : String) : Schema := { s with connection := name }

def withColumn (s : Schema) (name : String) (type : SqlType) : Schema := s.declare { name, type }

def withRelation (s : Schema) (name : String) (relation : Relation) : Schema :=
  s.declare (.ofRelation name relation)

def withComputed (s : Schema) (name : String) (compute : Values → Value) : Schema :=
  { s with
    computed := s.computed.put name compute
    dispatch := s.dispatch.put name .computed }

def withValidator (s : Schema) (check : Values → ValidationErrors → ValidationErrors) : Schema :=
  { s with validators := s.validators ++ [check] }

def access (s : Schema) (name : String) : Option Access := s.dispatch.get? name

def field (s : Schema) (name : String) : Option Field := s.fields.get? name

def fieldList (s : Schema) : List Field := s.fields.map Prod.snd

def columns (s : Schema) : List String := (s.fieldList.filter Field.isColumn).map Field.name

def hasColumn (s : Schema) (name : String) : Bool := s.access name = some .column

def relation (s : Schema) (name : String) : Option Relation := (s.field name).bind Field.relation

def relations (s : Schema) : List (String × Relation) :=
  s.fieldList.filterMap fun f => f.relation.map fun r => (f.name, r)

/-- What relations know of the model at a place among all models. -/
def ref (s : Schema) (key : Nat) : ModelRef :=
  { key, name := s.name, table := s.table, primaryKey := s.primaryKey }

def keyType (s : Schema) : SqlType :=
  match s.field s.primaryKey with
  | some f => f.type
  | none => .bigInt

@[simp] theorem access_declare_self (s : Schema) (f : Field) :
    (s.declare f).access f.name = some f.access := by
  simp [declare, access]

theorem access_declare_of_ne (s : Schema) (f : Field) {name : String} (h : f.name ≠ name) :
    (s.declare f).access name = s.access name := by
  simp [declare, access, Entries.get?_put_of_ne _ _ h]

@[simp] theorem field_declare_self (s : Schema) (f : Field) :
    (s.declare f).field f.name = some f := by
  simp [declare, field]

theorem field_declare_of_ne (s : Schema) (f : Field) {name : String} (h : f.name ≠ name) :
    (s.declare f).field name = s.field name := by
  simp [declare, field, Entries.get?_put_of_ne _ _ h]

end Schema

end RowMapper
