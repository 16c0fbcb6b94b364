import RowMapper.Relation.Junction
import RowMapper.Session.Find
import RowMapper.Session.Focus
import RowMapper.Session.Tables

/-! # Related records

A relation is resolved when it is first loaded and kept with the record from then
on, also when there is no related record. The keys that were assigned to a relation
with a junction table are linked when the record is saved.
-/

namespace RowMapper

namespace Action

variable {σ : Type}

def ownerRecord (d : Driver σ) (r : Record) (relation : Relation) (target : Schema) :
    Action σ (Option Record) :=
  match r.value? relation.localColumn with
  | some key => if key.isEmpty then pure none else findRecord d target key
  | none => pure none

def dependentQuery (owner : Schema) (key : Value) (relation : Relation) (target : Schema) :
    Action σ Query := do
  let q ← queryOf target
  return q.filter (.key (relation.foreignColumn owner.table owner.primaryKey) key)

def recordsOfKeys (d : Driver σ) (target : Schema) (keys : List Value) :
    Action σ (List Record) := do
  if keys.isEmpty then return []
  let q ← queryOf target
  records d target (q.filter (.isIn target.primaryKey keys false .and))

def junctionOf (owner : Schema) (name : String) (relation : Relation) (target : Schema) :
    Action σ Junction := do
  return Junction.ofRelation owner name relation target (← tablePrefix owner.connection)

/-- The junction table of the relation of a name, from the side of its owner. -/
def junctionNamed (owner : Schema) (name : String) : Action σ Junction := do
  match owner.relation name with
  | none => throw (.relationNotFound owner.name name)
  | some relation => junctionOf owner name relation (← targetSchema relation)

def linkedQuery (owner : Schema) (key : Value) (name : String) (relation : Relation)
    (target : Schema) : Action σ Query := do
  let j ← junctionOf owner name relation target
  let table ← tableOf target
  let q ← queryOf target
  let q := q.joined .inner (.table j.table)
    [.columns (j.table ++ "." ++ j.relatedKey) "=" (table ++ "." ++ target.primaryKey) .and]
  let q := q.filter (.key (j.table ++ "." ++ j.ownerKey) key)
  return match j.slot with
    | some slot => q.filter (.key (j.table ++ "." ++ Junction.slotColumn) (.text slot))
    | none => q

/-- The records that a junction table links to a key; without the table there are none. -/
def linkedRecords (d : Driver σ) (owner : Schema) (key : Value) (name : String)
    (relation : Relation) (target : Schema) : Action σ (List Record) := do
  let q ← linkedQuery owner key name relation target
  match ← attempt (records d target q) with
  | .ok found => return found
  | .error (.queryFailed code message) =>
    let c ← connectionOf d target
    if c.dialect.isMissingTable code message then return []
    else throw (.queryFailed code message)
  | .error e => throw e

/-- Resolve a relation of a record that has a primary key. -/
def dependents (d : Driver σ) (r : Record) (key : Value) (name : String) (relation : Relation)
    (target : Schema) : Action σ (Related Record) := do
  match relation.kind with
  | .hasOne =>
    let q ← dependentQuery r.schema key relation target
    return .one (← records d target (q.atMost 1)).getLast?
  | .hasMany =>
    let q ← dependentQuery r.schema key relation target
    return .many (← records d target q)
  | _ => return .many (← linkedRecords d r.schema key name relation target)

/-- Resolve a relation; the dependents of a new record are not known yet. -/
def resolve (d : Driver σ) (r : Record) (name : String) (relation : Relation) (target : Schema) :
    Action σ (Option (Related Record)) := do
  if relation.kind = .belongsTo then return some (.one (← ownerRecord d r relation target))
  match (r.pending.get? name).filter fun _ => relation.kind.needsJunction with
  | some keys => return some (.many (← recordsOfKeys d target keys))
  | none => match r.key? with
    | none => return none
    | some key => return some (← dependents d r key name relation target)

/-! ## Links -/

def ensureTable (d : Driver σ) (c : Connection) (j : Junction) : Action σ Unit := do
  if ← hasTable d c j.table then return ()
  else createTable d c j.table (j.columnDefinitions c.dialect)

def linkedKeys (d : Driver σ) (c : Connection) (j : Junction) (owner : Value) :
    Action σ (List Value) := do
  let statement ← check (Sql.Statement.ofQuery c.dialect (j.linkedKeys owner))
  let rows ← fetchStatement d c statement
  return rows.filterMap fun row => Entries.get? row j.relatedKey

/-- Link exactly the wanted keys to an owner: links to other keys are deleted first, and then the
links that are missing are inserted. -/
def link (d : Driver σ) (c : Connection) (j : Junction) (owner : Value) (wanted : List Value) :
    Action σ LinkChanges := do
  ensureTable d c j
  let changes := LinkChanges.between (← linkedKeys d c j owner) wanted
  if !changes.removed.isEmpty then
    let _ ← delete d c j.table (j.linkConditions owner changes.removed)
  if !changes.added.isEmpty then
    let _ ← insert d c j.table (changes.added.map (j.link owner)) {}
  return changes

def linkRelation (d : Driver σ) (c : Connection) (r : Record) (owner : Value) (name : String)
    (wanted : List Value) : Action σ LinkChanges := do
  link d c (← junctionNamed r.schema name) owner wanted

def linkEach (d : Driver σ) (c : Connection) (r : Record) (owner : Value) :
    Entries (List Value) → Action σ (Entries LinkChanges)
  | [] => pure []
  | (name, wanted) :: rest => do
    let first ← linkRelation d c r owner name wanted
    let others ← linkEach d c r owner rest
    return (name, first) :: others

end Action

namespace RecordAction

variable {σ : Type}

/-- The records of a relation, resolved when they are first asked for and kept from then on. Nothing
is kept of a relation that there is nothing to resolve for. -/
def load (d : Driver σ) (name : String) : RecordAction σ (Related Record) := do
  let r ← record
  check r.ensureLive
  match r.schema.relation name with
  | none => throw (.relationNotFound r.model name)
  | some relation => match r.related? name with
    | some found => return found
    | none =>
      let target ← inSession (Action.targetSchema relation)
      match ← inSession (Action.resolve d r name relation target) with
      | some found =>
        change fun r => r.keep name found
        return found
      | none => return .empty relation.kind

/-- Link the keys that were assigned to the record's relations. All of them are taken from the
record before the first statement, whatever becomes of it. -/
def saveLinks (d : Driver σ) : RecordAction σ (Entries LinkChanges) := do
  let r ← record
  if r.pending.isEmpty then return []
  match r.key? with
  | none => throw (.invalidArgument ("Cannot link '" ++ r.model ++
      "' records before they are saved"))
  | some key =>
    let c ← inSession (Action.connectionOf d r.schema)
    change fun r => { r with pending := [] }
    inSession (Action.linkEach d c r key r.pending)

def expectModel (schema : Schema) (r : Record) : Except Error Unit :=
  if r.model = schema.name then .ok ()
  else .error (.invalidArgument ("Related record is a '" ++ r.model ++ "', not a '" ++
    schema.name ++ "'"))

def expectModels (target : Nat) : List Record → RecordAction σ Unit
  | [] => pure ()
  | r :: rest => do
    check (expectModel (← inSession (Action.schema target)) r)
    expectModels target rest

def loadOne (d : Driver σ) (name : String) (target : Nat) : RecordAction σ (Option Record) := do
  match ← load d name with
  | .one found =>
    expectModels target found.toList
    return found
  | .many _ => throw (.invalidArgument ("Relation '" ++ name ++ "' of model '" ++
      (← record).model ++ "' is a collection"))

def loadMany (d : Driver σ) (name : String) (target : Nat) : RecordAction σ (List Record) := do
  let found ← load d name
  expectModels target found.toList
  return found.toList

end RecordAction

end RowMapper
