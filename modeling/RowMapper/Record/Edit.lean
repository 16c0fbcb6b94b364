import RowMapper.Record.Basic

/-! # Editing records

Assignments to the fields of a record. Columns coerce what they are given and
remember the value before the first change; relations accept what suits their
kind. An edit may fail, and then leaves the record as it was when it failed.
-/

namespace RowMapper

/-- An edit: a result or an error, and the record in either case. -/
abbrev Edit := EStateM Error Record

namespace Record

/-- Remember what a field was, unless that is known already. -/
def remember (r : Record) (name : String) (before : FieldValue Record) : Record :=
  if r.isDirty name then r else { r with initial := Entries.put r.initial name before }

def keep (r : Record) (name : String) (found : Related Record) : Record :=
  { r with relations := Entries.put r.relations name found }

def forget (r : Record) (name : String) : Record :=
  { r with relations := Entries.erase r.relations name }

/-- Put a value into the data and out of the names that the model does not declare. -/
def putData (r : Record) (name : String) (v : Value) : Record :=
  { r with data := r.data.put name v, extra := r.extra.erase name }

/-- Store a value, or leave the present one if it is no other value. What the field was is
remembered by its first change only. -/
def store (r : Record) (name : String) (v : Value) (unchanged : Bool) : Record :=
  if unchanged && r.data.has name then r
  else
    let before := (r.value? name).getD .null
    let r := if unchanged then r else r.remember name (.ofValue before)
    r.putData name v

def storeExact (r : Record) (name : String) (v : Value) : Record :=
  r.store name v (((r.value? name).getD .null).equal v)

/-- Store a value in the form of its column; a name without a column takes it as it is. -/
def storeCoerced (r : Record) (name : String) (v : Value) : Record :=
  match (r.schema.field name).filter Field.isColumn with
  | some f =>
    let v := v.coerce f.type r.filter
    r.store name v (Value.sameFor f.type ((r.value? name).getD .null) v)
  | none => r.storeExact name v

/-- A record of another model is no target of a relation. -/
def checkTarget (r : Record) (name : String) (relation : Relation) (related : Record) :
    Except Error Unit :=
  if related.model = relation.target.name then .ok ()
  else .error (.invalidArgument ("Relation '" ++ name ++ "' of model '" ++ r.model ++
    "' expects '" ++ relation.target.name ++ "', got '" ++ related.model ++ "'"))

def checkTargets (r : Record) (name : String) (relation : Relation) :
    List Record → Except Error Unit
  | [] => .ok ()
  | related :: rest => do
    r.checkTarget name relation related
    r.checkTargets name relation rest

def unsuitable (r : Record) (name : String) (relation : Relation) (v : FieldValue Record) : Error :=
  .invalidArgument ("Cannot assign a " ++ v.sort ++ " to " ++ relation.kind.name ++
    " relation '" ++ name ++ "' of model '" ++ r.model ++ "'")

end Record

namespace Edit

open Record

def check (outcome : Except Error α) : Edit α := fun r =>
  match outcome with
  | .ok a => .ok a r
  | .error e => .error e r

/-- Assign to a relation whose key this row holds. The key goes to the column of the relation; a
record is kept as well, and a key that is given alone lets go of the record that was known. -/
def assignOwner (name : String) (relation : Relation) (v : FieldValue Record) : Edit Unit := do
  let r ← get
  match v with
  | .related owner =>
    check (r.checkTarget name relation owner)
    let key := (owner.value? owner.schema.primaryKey).getD .null
    modify fun r => r.storeCoerced relation.localColumn key
    modify fun r => r.keep name (.one (some owner))
  | .null =>
    modify fun r => r.storeCoerced relation.localColumn .null
    modify fun r => r.keep name (.one none)
  | .scalar key =>
    modify fun r => r.storeCoerced relation.localColumn key
    modify fun r => r.forget name
  | v => throw (r.unsuitable name relation v)

/-- Assign to a relation whose key the one related row holds. -/
def assignDependent (name : String) (relation : Relation) (v : FieldValue Record) : Edit Unit := do
  let r ← get
  match v with
  | .related record =>
    check (r.checkTarget name relation record)
    modify fun r => r.keep name (.one (some record))
  | .null => modify fun r => r.keep name (.one none)
  | v => throw (r.unsuitable name relation v)

def assignDependents (name : String) (relation : Relation) (v : FieldValue Record) :
    Edit Unit := do
  let r ← get
  match v with
  | .relatedList records =>
    check (r.checkTargets name relation records)
    modify fun r => r.keep name (.many records)
  | .null => modify fun r => r.keep name (.many [])
  | v => throw (r.unsuitable name relation v)

/-- Assign keys to a relation with a junction table, to be linked when the record is saved. -/
def assignKeys (name : String) (before : FieldValue Record) (keys : List Value)
    (found : Option (Related Record)) : Edit Unit := do
  modify fun r => r.remember name before
  modify fun r => { r with pending := r.pending.put name keys }
  match found with
  | some found => modify fun r => r.keep name found
  | none => modify fun r => r.forget name

def assignLinks (name : String) (relation : Relation) (v : FieldValue Record) : Edit Unit := do
  let r ← get
  let before ← check (r.fieldValue name)
  match v with
  | .relatedList records =>
    check (r.checkTargets name relation records)
    assignKeys name before (records.filterMap Record.key?) (some (.many records))
  | .list keys => assignKeys name before keys none
  | .scalar key => assignKeys name before [key] none
  | .null => assignKeys name before [] (some (.many []))
  | v => throw (r.unsuitable name relation v)

def assignRelation (name : String) (relation : Relation) (v : FieldValue Record) : Edit Unit :=
  match relation.kind with
  | .belongsTo => assignOwner name relation v
  | .hasOne => assignDependent name relation v
  | .hasMany => assignDependents name relation v
  | .manyToMany => assignLinks name relation v

/-- Assign to a column. A value is brought into the form of the column, and SQL text is stored as it
is. -/
def assignColumn (name : String) (v : FieldValue Record) : Edit Unit :=
  match v with
  | .raw sql => modify fun r => r.storeExact name (.text sql)
  | v => do
    let v ← check v.toValue
    modify fun r => r.storeCoerced name v

def assignUndeclared (name : String) (v : FieldValue Record) : Edit Unit := do
  let r ← get
  match v with
  | .related _ | .relatedList _ => throw (.relationNotFound r.model name)
  | v =>
    let v ← check v.toValue
    modify fun r => { r with extra := r.extra.put name v }

def assign (name : String) (v : FieldValue Record) : Edit Unit := do
  let r ← get
  check r.ensureLive
  match r.schema.access name with
  | some .column => assignColumn name v
  | some .computed => throw (.invalidArgument ("Field '" ++ name ++ "' of model '" ++ r.model ++
      "' is computed and cannot be assigned"))
  | some (.relation _) => match r.schema.relation name with
    | some relation => assignRelation name relation v
    | none => throw (.relationNotFound r.model name)
  | none => assignUndeclared name v

/-- Whether bulk assignment leaves a field alone. -/
def isGuarded (s : Schema) (name : String) : Bool :=
  match s.field name with
  | some f => f.guarded
  | none => false

/-- Assign to several fields one after another, up to the first failure. -/
def assignAll : List (String × FieldValue Record) → Edit Unit
  | [] => pure ()
  | (name, v) :: rest => do
    let r ← get
    if isGuarded r.schema name then assignAll rest
    else do
      assign name v
      assignAll rest

end Edit

end RowMapper
