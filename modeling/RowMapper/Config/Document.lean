import RowMapper.Config.Basic
import RowMapper.Json.Printer
import RowMapper.Text.Quoted

/-! # Configuration from JSON

An object that maps connection names to objects. The adapter and the database
are mandatory, unknown keys are refused, and the first fault in reading order is
reported.
-/

namespace RowMapper.DatabaseConfig

/-- What a JSON value is, in the words of an error message. -/
def kindOf : Json → String
  | .null => "null"
  | .bool b => "boolean \x60" ++ (if b then "true" else "false") ++ "\x60"
  | .int n => "integer \x60" ++ toString n ++ "\x60"
  | .float x => "floating point \x60" ++ Json.floatText x ++ "\x60"
  | .str s => "string " ++ Text.quoted s
  | .arr _ => "sequence"
  | .obj _ => "map"

def wrongType (j : Json) (expected : String) : String :=
  "invalid type: " ++ kindOf j ++ ", expected " ++ expected

def readString : Json → Except String String
  | .str s => .ok s
  | j => .error (wrongType j "a string")

def readBounded (bound : Nat) (expected : String) : Json → Except String Nat
  | .int n =>
    if 0 ≤ n && n ≤ bound then .ok n.toNat
    else .error ("invalid value: " ++ kindOf (.int n) ++ ", expected " ++ expected)
  | j => .error (wrongType j expected)

def readOptional (read : Json → Except String α) : Json → Except String (Option α)
  | .null => .ok none
  | j => (read j).map some

/-- What has been read of one connection. -/
structure Section where
  adapter : Option Dialect := none
  database : Option String := none
  host : Option String := none
  port : Option Nat := none
  username : Option String := none
  password : Option String := none
  tablePrefix : String := ""
  charset : Option String := none
  timeoutSeconds : Option Nat := none

def sectionKeys : List String :=
  ["adapter", "database", "host", "port", "username", "password", "table_prefix", "charset",
    "connect_timeout_seconds"]

def Section.read (s : Section) (key : String) (j : Json) : Except String Section :=
  match key with
  | "adapter" => do
    let name ← readString j
    match Dialect.parse name with
    | .ok d => return { s with adapter := some d }
    | .error e => .error e.message
  | "database" => (readString j).map fun v => { s with database := some v }
  | "host" => (readOptional readString j).map fun v => { s with host := v }
  | "port" => (readOptional (readBounded 65535 "u16") j).map fun v => { s with port := v }
  | "username" => (readOptional readString j).map fun v => { s with username := v }
  | "password" => (readOptional readString j).map fun v => { s with password := v }
  | "table_prefix" => (readString j).map fun v => { s with tablePrefix := v }
  | "charset" => (readOptional readString j).map fun v => { s with charset := v }
  | "connect_timeout_seconds" =>
    (readOptional (readBounded (Nat.pow 2 64 - 1) "u64") j).map fun v => { s with timeoutSeconds := v }
  | _ => .error ("unknown field \x60" ++ key ++ "\x60, expected one of " ++
      ", ".intercalate (sectionKeys.map fun k => "\x60" ++ k ++ "\x60"))

def Section.finish (s : Section) : Except String ConnectionConfig :=
  match s.adapter, s.database with
  | none, _ => .error "missing field \x60adapter\x60"
  | some _, none => .error "missing field \x60database\x60"
  | some adapter, some database =>
    let base := ConnectionConfig.new adapter database
    let config : ConnectionConfig :=
      { base with
        host := s.host.getD base.host
        port := s.port.getD base.port
        username := s.username
        password := s.password
        tablePrefix := s.tablePrefix
        charset := s.charset.getD base.charset
        timeoutSeconds := s.timeoutSeconds.getD base.timeoutSeconds }
    match config.validate with
    | .ok () => .ok config
    | .error e => .error e.message

/-- Read the values of keys given by position; only the table prefix may be left out. -/
def Section.readPositions (s : Section) (length : Nat) :
    Nat → List String → List Json → Except String Section
  | _, [], [] => .ok s
  | _, [], _ :: _ =>
    .error ("invalid length " ++ toString length ++ ", expected fewer elements in array")
  | i, key :: keys, [] =>
    if key = "table_prefix" then s.readPositions length (i + 1) keys []
    else .error ("invalid length " ++ toString i ++
      ", expected struct ConnectionSection with 9 elements")
  | i, key :: keys, j :: js => do
    let s ← s.read key j
    s.readPositions length (i + 1) keys js

def readConnection : Json → Except String ConnectionConfig
  | .obj members => do
    let s ← members.foldlM (fun s (key, j) => Section.read s key j) {}
    s.finish
  | .arr items => do
    let s ← Section.readPositions {} items.length 0 sectionKeys items
    s.finish
  | j => .error (wrongType j "struct ConnectionSection")

def readConnections : Json → Except String DatabaseConfig
  | .obj members => members.foldlM (fun config (name, j) => do
      let connection ← readConnection j
      return Entries.put config name connection) []
  | j => .error (wrongType j "a map")

def ofJson (j : Json) : Except Error DatabaseConfig :=
  match readConnections j with
  | .ok config => .ok config
  | .error text => .error (.configuration ("Invalid database configuration: " ++ text))

end RowMapper.DatabaseConfig
