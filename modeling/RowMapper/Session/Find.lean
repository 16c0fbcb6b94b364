import RowMapper.Session.Select

/-! # Finding records

Queries of a model's table, and records by primary key. A record that was found
by its key once is taken from the identity map from then on.
-/

namespace RowMapper.Action

variable {σ : Type}

/-- How conditions reach the row of a relation, from rows of a table of that name. -/
def relationJoin (owner : Schema) (table name : String) (r : Relation) :
    Action σ RelationJoin := do
  let target ← targetSchema r
  let targetTable ← tableOf target
  let (near, far) := if r.kind = .belongsTo then (r.localColumn, target.primaryKey)
    else (owner.primaryKey, r.foreignColumn owner.table owner.primaryKey)
  return { name, table := targetTable, localColumn := table ++ "." ++ near, foreignColumn := far }

def relationJoins (owner : Schema) (table : String) :
    List (String × Relation) → Action σ (List RelationJoin)
  | [] => pure []
  | (name, r) :: rest =>
    if r.kind.isJoinable then do
      let first ← relationJoin owner table name r
      let others ← relationJoins owner table rest
      return first :: others
    else relationJoins owner table rest

def queryOf (schema : Schema) : Action σ Query := do
  let table ← tableOf schema
  let relations ← relationJoins schema table schema.relations
  return (({} : Query).fromTables table |>.select (table ++ ".*")).onConnection schema.connection
    |>.withRelations relations

def modelQuery (key : Nat) : Action σ Query := do
  queryOf (← schema key)

def records (d : Driver σ) (schema : Schema) (q : Query) : Action σ (List Record) := do
  let rows ← rows d q
  return rows.map ((← get).hydrate schema)

def firstRecord (d : Driver σ) (schema : Schema) (q : Query) : Action σ (Option Record) := do
  let row ← firstRow d q
  return row.map ((← get).hydrate schema)

def requireRecord (d : Driver σ) (schema : Schema) (q : Query) : Action σ Record := do
  match ← firstRecord d schema q with
  | some r => return r
  | none => throw (.notFound ("No '" ++ schema.name ++ "' record matched the query"))

def remembered (i : Identity) : Action σ (Option Record) := do
  let (r, identities) := (← get).identities.get i
  modify fun s => { s with identities }
  return r

def rememberRecord (r : Record) : Action σ Unit :=
  modify fun s => { s with identities := s.identities.store r }

def forgetRecord (i : Identity) : Action σ Bool := do
  let (known, identities) := (← get).identities.invalidate i
  modify fun s => { s with identities }
  return known

def rememberFound : Option Record → Action σ Unit
  | some r => rememberRecord r
  | none => pure ()

/-- The record of a schema with a primary key. No row has an empty one, and a row whose copy is in
the identity map is not asked for. -/
def findRecord (d : Driver σ) (schema : Schema) (key : Value) : Action σ (Option Record) := do
  if key.isEmpty then return none
  match ← remembered (.of schema.name key) with
  | some r => return some r
  | none =>
    let q ← queryOf schema
    let found ← records d schema ((q.filter (.key schema.primaryKey key)).atMost 1)
    rememberFound found.head?
    return found.head?

def findWhere (d : Driver σ) (key : Nat) (conditions : List (Condition Query)) :
    Action σ (Option Record) := do
  let q ← modelQuery key
  let schema ← schema key
  let found ← firstRecord d schema (q.filterAll conditions .and)
  rememberFound found
  return found

end RowMapper.Action
