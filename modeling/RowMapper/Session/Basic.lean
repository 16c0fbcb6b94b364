import RowMapper.Connection.Driver
import RowMapper.Event.Observer
import RowMapper.Record.Identity
import RowMapper.Schema.Registry
import RowMapper.Sql.Write

/-! # Sessions

All that records and queries work with: the configured connections and those that
are open, the models' schemas, the identity map and the observers. Every call of
the driver and every call of an observer is written into a journal.
-/

namespace RowMapper

inductive Call where
  /-- A connection was asked for under a name, with or without success. -/
  | connect (name : String) (serial : Nat) (opened : Bool)
  | close (name : String) (serial : Nat)
  /-- A statement was sent. -/
  | send (name : String) (dialect : Dialect) (sql : String) (values : List Value)

structure Notice where
  label : String
  event : Event

/-- The order in which connections are taken out of the registry when all of them are. Nothing is
promised about it, not even that it is the same every time. -/
structure DrainOrder where
  arrange : List Connection → List Connection
  perm : ∀ cs, (arrange cs).Perm cs

def DrainOrder.asRegistered : DrainOrder := ⟨id, fun _ => .refl _⟩

/-- What records and queries work with, over the state of the driver's servers. -/
structure Session (σ : Type) where
  config : DatabaseConfig
  /-- The dialects that the driver serves. -/
  served : List Dialect
  /-- The state of the driver. -/
  servers : σ
  schemas : SchemaRegistry
  /-- The open connections by name. -/
  connections : Entries Connection := []
  /-- The number of the next physical connection. -/
  nextSerial : Nat := 0
  identities : IdentityMap := {}
  observers : Observers := []
  /-- What assigned texts go through. -/
  filter : ImportFilter := ImportFilter.passThrough
  /-- Who acts, if that is known. -/
  user : Option Value := none
  /-- The present time. -/
  now : Calendar.Timestamp
  /-- The calls of the driver so far. -/
  calls : List Call := []
  /-- The calls of observers so far. -/
  notices : List Notice := []

def Session.drained (s : Session σ) (order : DrainOrder) : List Connection :=
  order.arrange (s.connections.map Prod.snd)

/-- Something done in a session: a result or an error, and the session in either case. -/
abbrev Action (σ : Type) := EStateM Error (Session σ)

namespace Action

variable {σ : Type}

def check (outcome : Except Error α) : Action σ α := fun s =>
  match outcome with
  | .ok a => .ok a s
  | .error e => .error e s

def attempt (action : Action σ α) : Action σ (Except Error α) := fun s =>
  match action s with
  | .ok a s => .ok (.ok a) s
  | .error e s => .ok (.error e) s

/-! ## Connections -/

def usableConfig (name : String) : Action σ ConnectionConfig := do
  let s ← get
  let config ← check (DatabaseConfig.find s.config name)
  check config.validate
  if s.served.contains config.adapter then return config
  else throw (.configuration ("No connector registered for adapter '" ++
    config.adapter.adapterName ++ "' (connection '" ++ name ++ "')"))

def connect (d : Driver σ) (name : String) (config : ConnectionConfig) : Action σ Connection :=
  fun s =>
    let c : Connection := { serial := s.nextSerial, config, statistics := ⟨name, 0, 0⟩ }
    let tried := fun (opened : Bool) (servers : σ) =>
      { s with
        servers
        nextSerial := s.nextSerial + 1
        calls := s.calls ++ [.connect name s.nextSerial opened] }
    match d.connect s.nextSerial config s.servers with
    | .ok _ servers =>
      .ok c { tried true servers with connections := Entries.put s.connections name c }
    | .error e servers => .error e (tried false servers)

/-- The connection of a name, opened at its first use. One that could not be opened is tried again
at the next. -/
def connection (d : Driver σ) (name : String) : Action σ Connection := do
  match Entries.get? (← get).connections name with
  | some c => return c
  | none => connect d name (← usableConfig name)

/-- Close a connection that is registered no longer. -/
def closeOne (d : Driver σ) (c : Connection) : Action σ Unit := fun s =>
  let calls := s.calls ++ [.close c.name c.serial]
  match d.close c.serial c.config s.servers with
  | .ok _ servers => .ok () { s with servers, calls }
  | .error e servers => .error e { s with servers, calls }

/-- Close the connection of a name; whether it was open is told. -/
def close (d : Driver σ) (name : String) : Action σ Bool := do
  match Entries.get? (← get).connections name with
  | some c =>
    modify fun s => { s with connections := s.connections.erase name }
    closeOne d c
    return true
  | none => return false

/-- Close connections one after another, up to the first failure. -/
def closeEach (d : Driver σ) : List Connection → Action σ Unit
  | [] => pure ()
  | c :: rest => do
    closeOne d c
    closeEach d rest

/-- Close all connections, as they are drained. All of them are registered no longer from the start,
and the first that fails to close ends it. -/
def closeAll (d : Driver σ) (order : DrainOrder := .asRegistered) : Action σ Unit := do
  let s ← get
  set { s with connections := [] }
  closeEach d (s.drained order)

/-! ## Statements -/

def counted (connections : Entries Connection) (name : String) (failed : Bool) :
    Entries Connection :=
  connections.map fun (n, c) => (n, if n = name then c.counted failed else c)

def send (c : Connection) (sql : String) (values : List Value) (body : EStateM Error σ α) :
    Action σ α := fun s =>
  let sent := fun (failed : Bool) (servers : σ) =>
    { s with
      servers
      calls := s.calls ++ [.send c.name c.dialect sql values]
      connections := counted s.connections c.name failed }
  match body s.servers with
  | .ok a servers => .ok a (sent false servers)
  | .error e servers => .error e (sent true servers)

def fetch (d : Driver σ) (c : Connection) (sql : String) (values : List Value) :
    Action σ (List Row) := do
  let (sql, values) ← check (Sql.positional c.dialect sql values)
  send c sql values (d.fetch c.serial c.config sql values)

def execute (d : Driver σ) (c : Connection) (sql : String) (values : List Value) :
    Action σ Outcome := do
  let (sql, values) ← check (Sql.positional c.dialect sql values)
  send c sql values (d.execute c.serial c.config sql values)

def fetchStatement (d : Driver σ) (c : Connection) (s : Sql.Statement) : Action σ (List Row) :=
  fetch d c s.sql s.params

def executeStatement (d : Driver σ) (c : Connection) (s : Sql.Statement) : Action σ Outcome :=
  execute d c s.sql s.params

/-- SQL text whose question marks take values, as a statement. -/
def rawStatement (sql : String) (values : List Value) : Except Error Sql.Statement :=
  Sql.Statement.ofRender (Sql.ParamSink.expandRaw sql values)

def fetchRaw (d : Driver σ) (c : Connection) (sql : String) (values : List Value) :
    Action σ (List Row) := do
  fetchStatement d c (← check (rawStatement sql values))

def executeRaw (d : Driver σ) (c : Connection) (sql : String) (values : List Value) :
    Action σ Outcome := do
  executeStatement d c (← check (rawStatement sql values))

/-! ## Schemas and tables -/

def schema (key : Nat) : Action σ Schema := do
  let (schema, schemas) := (← get).schemas.resolve key
  modify fun s => { s with schemas }
  return schema

def newRecord (key : Nat) : Action σ Record := do
  let schema ← schema key
  return .new schema (← get).filter

def targetSchema (r : Relation) : Action σ Schema := schema r.target.key

/-- Give a field to a model. Copies of its records are dropped, since they lack it. -/
def giveField (model donor : String) (field : Field) : Action σ Unit := do
  let schemas ← check ((← get).schemas.giveField model donor field)
  modify fun s => { s with schemas, identities := s.identities.dropModel model }

def tablePrefix (name : String) : Action σ String := do
  check (DatabaseConfig.tablePrefix (← get).config name)

/-- The table of a model, with the prefix of its connection. -/
def tableOf (schema : Schema) : Action σ String := do
  return (← tablePrefix schema.connection) ++ schema.table

def connectionOf (d : Driver σ) (schema : Schema) : Action σ Connection :=
  connection d schema.connection

end Action

namespace Session

variable {σ : Type}

def hydrate (s : Session σ) (schema : Schema) (row : Row) : Record :=
  Record.ofRow schema row s.filter

def sentIn (s : Session σ) (d : Dialect) : List (String × List Value) :=
  s.calls.filterMap fun call => match call with
    | .send _ dialect sql values => if dialect = d then some (sql, values) else none
    | _ => none

def totals (s : Session σ) : Connection.Totals :=
  Connection.Totals.ofList (s.connections.map fun entry => entry.2.statistics)

end Session

end RowMapper
