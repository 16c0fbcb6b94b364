import RowMapper.Schema.Basic
import RowMapper.Value.Coercion

/-! # Records

One row of a model's table: the values of its columns, the values of all other
names, what changed since it was loaded or saved, and the related records found
so far.
-/

namespace RowMapper

/-- What a field of a record is read as and assigned, over a type of records. -/
inductive FieldValue (Record : Type) where
  | null
  | scalar (v : Value)
  | list (vs : List Value)
  | related (record : Record)
  | relatedList (records : List Record)
  /-- SQL text. -/
  | raw (sql : String)

namespace FieldValue

variable {Record : Type}

def ofValue : Value → FieldValue Record
  | .null => .null
  | v => .scalar v

def ofOption : Option Value → FieldValue Record
  | some v => ofValue v
  | none => .null

/-- The value, if it is a single one. Null, SQL text and a list with one member are none. -/
def toScalar? : FieldValue Record → Option Value
  | .scalar v => some v
  | _ => none

/-- The value that a column takes: a list becomes a JSON array and SQL text a text. Related records
have no such value. -/
def toValue : FieldValue Record → Except Error Value
  | .null => .ok .null
  | .scalar v => .ok v
  | .raw sql => .ok (.text sql)
  | .list vs => .ok (.json (.arr (vs.map Value.toJson)))
  | .related _ | .relatedList _ =>
    .error (.invalidArgument "A related record cannot be stored in a scalar field")

def sort : FieldValue Record → String
  | .null => "null"
  | .scalar _ => "scalar"
  | .list _ => "list"
  | .related _ => "related record"
  | .relatedList _ => "list of related records"
  | .raw _ => "raw SQL"

end FieldValue

/-- The records found for a relation, over a type of records. -/
inductive Related (Record : Type) where
  | one (record : Option Record)
  | many (records : List Record)

namespace Related

variable {Record : Type}

def toList : Related Record → List Record
  | .one record => record.toList
  | .many records => records

def first? (r : Related Record) : Option Record := r.toList.head?

/-- No records, for a relation of a kind. -/
def empty (kind : RelationKind) : Related Record :=
  if kind.isCollection then .many [] else .one none

def toFieldValue : Related Record → FieldValue Record
  | .one (some record) => .related record
  | .one none => .null
  | .many records => .relatedList records

end Related

/-- One row of a model's table, with what is known of its changes and of the records related to it.
A name has its value in `data` if the model serves a column of the name, and else in `extra`. -/
structure Record where
  schema : Schema
  /-- The values of the columns. -/
  data : Entries Value := []
  /-- The values of names that the model does not declare. -/
  extra : Entries Value := []
  /-- What changed fields were before their first change. -/
  initial : List (String × FieldValue Record) := []
  /-- The related records found so far, by relation. -/
  relations : List (String × Related Record) := []
  /-- The keys that were assigned to relations and not saved yet. -/
  pending : Entries (List Value) := []
  /-- What the last validation found. -/
  errors : ValidationErrors := []
  /-- What texts go through when they are assigned. -/
  filter : ImportFilter := ImportFilter.passThrough
  /-- Whether the row was deleted. -/
  voided : Bool := false

namespace Record

def new (schema : Schema) (filter : ImportFilter := ImportFilter.passThrough) : Record :=
  { schema, filter
    data := (schema.fieldList.filter Field.isColumn).filterMap fun f =>
      f.default.map fun v => (f.name, v) }

def takeIn (r : Record) (name : String) (v : Value) : Record :=
  if r.schema.hasColumn name then { r with data := r.data.put name v }
  else { r with extra := r.extra.put name v }

/-- The record of a row, whose values are taken as they are. -/
def ofRow (schema : Schema) (row : Row) (filter : ImportFilter := ImportFilter.passThrough) :
    Record :=
  row.foldl (fun r (name, v) => r.takeIn name v) { schema, filter }

def model (r : Record) : String := r.schema.name

def value? (r : Record) (name : String) : Option Value :=
  (r.data.get? name).or (r.extra.get? name)

/-- The primary key. An empty one counts as none, so that zero and the empty text are not the key of
a row. -/
def key? (r : Record) : Option Value :=
  (r.data.get? r.schema.primaryKey).filter fun v => !v.isEmpty

def isNew (r : Record) : Bool := r.key?.isNone

def related? (r : Record) (name : String) : Option (Related Record) := Entries.get? r.relations name

def isDirty (r : Record) (name : String) : Bool := Entries.has r.initial name

def initial? (r : Record) (name : String) : Option (FieldValue Record) :=
  Entries.get? r.initial name

def ensureLive (r : Record) : Except Error Unit :=
  if r.voided then .error (.voided r.model) else .ok ()

/-- Read a field. A relation that was not resolved reads as the keys assigned to it, or as null. -/
def fieldValue (r : Record) (name : String) : Except Error (FieldValue Record) := do
  r.ensureLive
  match r.schema.access name with
  | some .column => return .ofOption (r.data.get? name)
  | some .computed => match r.schema.computed.get? name with
    | some compute => return .ofValue (compute r.value?)
    | none => return .null
  | some (.relation _) => match r.related? name with
    | some found => return found.toFieldValue
    | none => match r.pending.get? name with
      | some keys => return .list keys
      | none => return .null
  | none => return .ofOption (r.extra.get? name)

/-- Whether a changed name is written by an update. -/
def isWritable (r : Record) (name : String) : Bool :=
  match r.schema.access name with
  | some (.relation _) => false
  | _ => true

def changedColumns (r : Record) : Entries Value :=
  ((Entries.names r.initial).filter r.isWritable).map fun name =>
    (name, (r.data.get? name).getD .null)

def isMissing : Option Value → Bool
  | none => true
  | some .null => true
  | some (.text s) => (Text.trim s).isEmpty
  | some _ => false

def isRequired (r : Record) (f : Field) : Bool :=
  f.isColumn && !f.nullable && f.default.isNone && f.name != r.schema.primaryKey

/-- Check the required columns, then run the validators. A column with a default is not required,
and neither is the primary key. -/
def validate (r : Record) : ValidationErrors :=
  let missing := r.schema.fieldList.filter fun f => r.isRequired f && isMissing (r.data.get? f.name)
  let errors := missing.foldl (fun errors f => ValidationErrors.add errors f.name "is required") []
  r.schema.validators.foldl (fun errors check => check r.value? errors) errors

def toJson (r : Record) : Json :=
  .obj (Entries.ofPairs ((r.data ++ r.extra).map fun (name, v) => (name, v.toJson)))

/-- Whether two rows have the same values, in any order. -/
def sameEntries (a b : Entries Value) : Bool :=
  a.length == b.length && a.all fun (name, v) => match b.get? name with
    | some w => v.equal w
    | none => false

def equal (a b : Record) : Bool :=
  a.model == b.model && sameEntries a.data b.data && sameEntries a.extra b.extra

/-- The record without related records and unsaved links. -/
def detached (r : Record) : Record := { r with relations := [], pending := [] }

/-- The record with a primary key that the database gave. -/
def withKey (r : Record) (v : Value) : Record :=
  { r with data := r.data.put r.schema.primaryKey v }

def clean (r : Record) : Record := { r with initial := [] }

def void (r : Record) : Record :=
  { r with data := [], extra := [], initial := [], relations := [], pending := [], voided := true }

end Record

end RowMapper
