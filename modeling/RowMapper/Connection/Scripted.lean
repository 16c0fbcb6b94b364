import RowMapper.Connection.Driver
import RowMapper.Text.Pieces

/-! # A scripted driver

A driver without a server: it answers each statement from the first script whose
fragment occurs in it. Without a script, an insert gets the next key, and any
other statement succeeds and has no rows.
-/

namespace RowMapper.Scripted

open Text

inductive Reply where
  | rows (rows : List Row)
  | affected (count : Nat)
  | failure (code message : String)

/-- An answer to the statements in which a fragment occurs. -/
structure Script where
  fragment : String
  reply : Reply
  /-- Whether the script is used up by its first answer. -/
  once : Bool := false

/-- The scripts of one server, and the next key that it gives. -/
structure Server where
  scripts : List Script := []
  nextKey : Int64 := 1

structure Servers where
  postgres : Server := {}
  mysql : Server := {}
  sqlite : Server := {}

def Servers.get (s : Servers) : Dialect → Server
  | .postgres => s.postgres
  | .mysql => s.mysql
  | .sqlite => s.sqlite

def Servers.put (s : Servers) (d : Dialect) (server : Server) : Servers :=
  match d with
  | .postgres => { s with postgres := server }
  | .mysql => { s with mysql := server }
  | .sqlite => { s with sqlite := server }

/-- The refusal with which a server reports that a table is missing. -/
def missingTable : Dialect → Reply
  | .postgres => .failure "42P01" "relation does not exist"
  | .mysql => .failure "42S02" "Table doesn't exist"
  | .sqlite => .failure "1" "no such table"

namespace Server

/-- Add a script, which is asked after those that are there. -/
def withScript (s : Server) (script : Script) : Server :=
  { s with scripts := s.scripts ++ [script] }

/-- The answer of the first script that fits, and the scripts that are left. -/
def answer (sql : String) : List Script → Option (Reply × List Script)
  | [] => none
  | script :: rest =>
    if containsPhrase script.fragment sql then
      some (script.reply, if script.once then rest else script :: rest)
    else (answer sql rest).map fun (reply, left) => (reply, script :: left)

def takeKey (s : Server) : Value × Server :=
  (.int64 s.nextKey, { s with nextKey := s.nextKey + 1 })

def afterLast? (phrase : List Char) : List Char → Option (List Char)
  | [] => none
  | c :: cs => match afterLast? phrase cs with
    | some rest => some rest
    | none => if phrase.isPrefixOf (c :: cs) then some ((c :: cs).drop phrase.length) else none

def quotesNames (c : Char) : Bool := c == '"' || c == '\x60'

def returnedColumn? (sql : String) : Option String :=
  (afterLast? " RETURNING ".toList sql.toList).map fun rest =>
    let bare := (trimChars rest).dropWhile quotesNames
    String.ofList (bare.reverse.dropWhile quotesNames).reverse

def fetch (sql : String) : EStateM Error Server (List Row) := fun s =>
  match answer sql s.scripts with
  | some (.failure code message, scripts) =>
    .error (.queryFailed code message) { s with scripts }
  | some (.rows rows, scripts) => .ok rows { s with scripts }
  | some (.affected _, scripts) => .ok [] { s with scripts }
  | none => match returnedColumn? sql with
    | some column =>
      let (key, s) := s.takeKey
      .ok [[(column, key)]] s
    | none => .ok [] s

def execute (sql : String) : EStateM Error Server Outcome := fun s =>
  match answer sql s.scripts with
  | some (.failure code message, scripts) =>
    .error (.queryFailed code message) { s with scripts }
  | some (.rows rows, scripts) => .ok { affected := rows.length } { s with scripts }
  | some (.affected count, scripts) => .ok { affected := count } { s with scripts }
  | none =>
    if "INSERT".toList.isPrefixOf sql.toList then
      let (key, s) := s.takeKey
      .ok { affected := 1, insertedKey := some key } s
    else .ok { affected := 1 } s

end Server

def onServer (d : Dialect) (action : EStateM Error Server α) : EStateM Error Servers α := fun s =>
  match action (s.get d) with
  | .ok a server => .ok a (s.put d server)
  | .error e server => .error e (s.put d server)

/-- The driver; every connection opens and closes. -/
def driver : Driver Servers where
  connect _ _ := pure ()
  close _ _ := pure ()
  fetch _ config sql _ := onServer config.adapter (Server.fetch sql)
  execute _ config sql _ := onServer config.adapter (Server.execute sql)

end RowMapper.Scripted
