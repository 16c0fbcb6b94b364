import RowMapper.Decimal.Reader
import RowMapper.Dialect
import RowMapper.Json.Basic
import RowMapper.Url.Basic

/-! # Connection configuration

Where a named connection leads and which prefix its tables have. A configuration
is made from a database URL or built up from its parts, and is written back as a
URL.
-/

namespace RowMapper

def defaultConnection : String := "default"

/-- Where one named connection leads. -/
structure ConnectionConfig where
  adapter : Dialect
  host : String
  port : Nat
  username : Option String := none
  password : Option String := none
  database : String
  tablePrefix : String := ""
  charset : String := "utf8"
  timeoutSeconds : Nat := 30
  deriving DecidableEq, Repr

namespace ConnectionConfig

def defaultPort : Dialect → Nat
  | .postgres => 5432
  | .mysql => 3306
  | .sqlite => 0

def new (adapter : Dialect) (database : String) : ConnectionConfig :=
  { adapter := adapter, host := "localhost", port := defaultPort adapter, database := database }

/-- A connection needs a database, and a host unless the database is a file. -/
def validate (c : ConnectionConfig) : Except Error Unit :=
  if c.database.isEmpty then
    .error (.configuration "Missing database name in connection configuration")
  else if c.adapter ≠ .sqlite && c.host.isEmpty then
    .error (.configuration "Missing host in connection configuration")
  else .ok ()

def readSeconds (s : String) : Except Error Nat :=
  let n := match s.toList with
    | '+' :: cs => Decimal.readNat cs
    | cs => Decimal.readNat cs
  match n.filter (· < Nat.pow 2 64) with
  | some n => .ok n
  | none => .error (.configuration ("Invalid connect_timeout '" ++ s ++ "'"))

/-- Apply one parameter of a URL's query; unknown ones are ignored. -/
def withParameter (c : ConnectionConfig) (name value : String) : Except Error ConnectionConfig :=
  if name = "prefix" || name = "table_prefix" then .ok { c with tablePrefix := value }
  else if name = "charset" then .ok { c with charset := value }
  else if name = "connect_timeout" then do
    let seconds ← readSeconds value
    return { c with timeoutSeconds := seconds }
  else .ok c

def ofUrl (text : String) : Except Error ConnectionConfig := do
  let url ← match Url.parse text with
    | .ok url => .ok url
    | .error e => .error (.configuration ("Invalid database URL: " ++ e.message))
  let adapter ← Dialect.parse url.scheme
  let base := new adapter (String.ofList (url.path.toList.dropWhile (· == '/')))
  let config : ConnectionConfig :=
    { base with
      host := url.host.getD base.host
      port := url.port.getD base.port
      username := if url.username.isEmpty then none else some url.username
      password := url.password }
  let config ← url.pairs.foldlM (fun c (name, value) => c.withParameter name value) config
  config.validate
  return config

def credentials (c : ConnectionConfig) : String :=
  match c.username, c.password with
  | some user, some password => user ++ ":" ++ password ++ "@"
  | some user, none => user ++ "@"
  | none, _ => ""

def toUrl (c : ConnectionConfig) : String :=
  if c.adapter = .sqlite then "sqlite://" ++ c.database
  else c.adapter.adapterName ++ "://" ++ c.credentials ++ c.host ++ ":" ++ toString c.port ++ "/" ++
    c.database

def toJson (c : ConnectionConfig) : Json :=
  let optional := fun s : Option String => (s.map Json.str).getD .null
  .obj [("adapter", .str c.adapter.adapterName), ("host", .str c.host), ("port", .int c.port),
    ("username", optional c.username), ("password", optional c.password),
    ("database", .str c.database), ("table_prefix", .str c.tablePrefix),
    ("charset", .str c.charset), ("connect_timeout_seconds", .int c.timeoutSeconds)]

end ConnectionConfig

abbrev DatabaseConfig := Entries ConnectionConfig

namespace DatabaseConfig

/-- The configuration of a name, which has to be there. -/
def find (config : DatabaseConfig) (name : String) : Except Error ConnectionConfig :=
  match Entries.get? config name with
  | some c => .ok c
  | none => .error (.configuration ("No database connection named '" ++ name ++ "' is configured"))

def tablePrefix (config : DatabaseConfig) (name : String) : Except Error String :=
  (find config name).map ConnectionConfig.tablePrefix

end DatabaseConfig

end RowMapper
