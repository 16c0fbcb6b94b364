import RowMapper.Error
import RowMapper.Text.Case
import RowMapper.Text.Pieces

/-! # SQL dialects

The three kinds of database and what differs between their dialects: quotes,
parameter marks, literals and a few keywords.
-/

namespace RowMapper

inductive Dialect where
  | postgres
  | mysql
  | sqlite
  deriving DecidableEq, Repr, Inhabited

namespace Dialect

def adapterName : Dialect → String
  | postgres => "postgresql"
  | mysql => "mysql"
  | sqlite => "sqlite"

def properName : Dialect → String
  | postgres => "PostgreSQL"
  | mysql => "MySQL"
  | sqlite => "SQLite"

/-- The dialect of an adapter name or of one of its other spellings, in any case. -/
def parse (s : String) : Except Error Dialect :=
  let name := Text.lower s
  if name ∈ ["postgresql", "postgres", "pgsql"] then .ok postgres
  else if name ∈ ["mysql", "mariadb"] then .ok mysql
  else if name ∈ ["sqlite", "sqlite3"] then .ok sqlite
  else .error (.configuration ("Unsupported database adapter: " ++ s))

/-- The mark of the parameter at a position, counted from zero. -/
def mark (d : Dialect) (index : Nat) : String :=
  match d with
  | postgres => "$" ++ toString (index + 1)
  | mysql | sqlite => "?"

def identifierQuote : Dialect → Char
  | postgres => '"'
  | mysql => '\x60'
  | sqlite => '"'

def boolLiteral : Dialect → Bool → String
  | postgres, b => if b then "TRUE" else "FALSE"
  | _, b => if b then "1" else "0"

def currentTimestamp : Dialect → String
  | postgres | mysql => "NOW()"
  | sqlite => "CURRENT_TIMESTAMP"

/-- The definition of a key column that numbers its rows. -/
def autoIncrementKey (d : Dialect) (column : String) : String :=
  match d with
  | postgres => column ++ " SERIAL PRIMARY KEY"
  | mysql => column ++ " INT UNSIGNED NOT NULL AUTO_INCREMENT PRIMARY KEY"
  | sqlite => column ++ " INTEGER PRIMARY KEY AUTOINCREMENT"

/-- Whether generated keys are read back with `RETURNING`. -/
def returnsKeys : Dialect → Bool
  | postgres => true
  | _ => false

/-- The word after `INSERT` that skips duplicate rows. -/
def insertIgnoreWord : Dialect → String
  | postgres => ""
  | mysql => " IGNORE"
  | sqlite => " OR IGNORE"

/-- Whether the database's refusal says that a table does not exist. -/
def isMissingTable (d : Dialect) (code message : String) : Bool :=
  match d with
  | postgres => code == "42P01"
  | mysql => code == "1146" || code == "42S02"
  | sqlite => Text.containsPhrase "no such table" message

end Dialect

end RowMapper
