import RowMapper.Dialect
import RowMapper.Decimal.Reader

/-! # Column types

The declared types of columns, how a declaration is read, and how it is written
in each dialect. Types fall into families, and a family decides how values are
brought into form.
-/

namespace RowMapper

inductive SqlType where
  | smallInt
  | integer
  | bigInt
  | float
  | double
  | decimal (precision scale : UInt8)
  | boolean
  | char (length : UInt32)
  | varchar (length : UInt32)
  | text
  | date
  | dateTime
  | timestamp
  | time
  | json
  | uuid
  | binary
  deriving DecidableEq, Repr

/-- The types whose values have one form. -/
inductive TypeFamily where
  | integer
  | float
  | boolean
  | text
  | date
  | dateTime
  | time
  | json
  | uuid
  | binary
  deriving DecidableEq, Repr

def TypeFamily.name : TypeFamily → String
  | integer => "Integer"
  | float => "Float"
  | boolean => "Boolean"
  | text => "Text"
  | date => "Date"
  | dateTime => "DateTime"
  | time => "Time"
  | json => "Json"
  | uuid => "Uuid"
  | binary => "Binary"

namespace SqlType

open Text Decimal

def name : SqlType → String
  | smallInt => "SmallInt"
  | integer => "Integer"
  | bigInt => "BigInt"
  | float => "Float"
  | double => "Double"
  | decimal p s => "Decimal(" ++ toString p.toNat ++ ", " ++ toString s.toNat ++ ")"
  | boolean => "Boolean"
  | char n => "Char(" ++ toString n.toNat ++ ")"
  | varchar n => "Varchar(" ++ toString n.toNat ++ ")"
  | text => "Text"
  | date => "Date"
  | dateTime => "DateTime"
  | timestamp => "Timestamp"
  | time => "Time"
  | json => "Json"
  | uuid => "Uuid"
  | binary => "Binary"

def family : SqlType → TypeFamily
  | smallInt | integer | bigInt => .integer
  | float | double | decimal _ _ => .float
  | boolean => .boolean
  | char _ | varchar _ | text => .text
  | date => .date
  | dateTime | timestamp => .dateTime
  | time => .time
  | json => .json
  | uuid => .uuid
  | binary => .binary

def definition : SqlType → Dialect → String
  | smallInt, _ => "SMALLINT"
  | integer, _ => "INTEGER"
  | bigInt, _ => "BIGINT"
  | float, _ => "REAL"
  | double, .postgres => "DOUBLE PRECISION"
  | double, _ => "DOUBLE"
  | decimal precision scale, _ =>
    "DECIMAL(" ++ toString precision.toNat ++ ", " ++ toString scale.toNat ++ ")"
  | boolean, .mysql => "TINYINT(1)"
  | boolean, _ => "BOOLEAN"
  | char length, _ => "CHAR(" ++ toString length.toNat ++ ")"
  | varchar length, _ => "VARCHAR(" ++ toString length.toNat ++ ")"
  | text, _ => "TEXT"
  | date, _ => "DATE"
  | dateTime, .postgres => "TIMESTAMP"
  | dateTime, _ => "DATETIME"
  | timestamp, _ => "TIMESTAMP"
  | time, _ => "TIME"
  | json, .postgres => "JSONB"
  | json, .mysql => "JSON"
  | json, .sqlite => "TEXT"
  | uuid, .postgres => "UUID"
  | uuid, _ => "CHAR(36)"
  | binary, .postgres => "BYTEA"
  | binary, _ => "BLOB"

def readUInt32 (cs : List Char) : Option UInt32 :=
  let n := match cs with
    | '+' :: cs => readNat cs
    | cs => readNat cs
  (n.filter (· < Nat.pow 2 32)).map UInt32.ofNat

/-- The numbers between the parentheses of a declaration; what is no number is left out. -/
def readArguments (cs : List Char) : List UInt32 :=
  (splitChars ',' cs).filterMap fun part => readUInt32 (trimChars part)

def splitDeclaration (cs : List Char) : List Char × List UInt32 :=
  match breakPhrase ['('] cs with
  | some (base, rest) =>
    (trimChars base,
      readArguments (trimChars (rest.reverse.dropWhile (· == ')')).reverse))
  | none => (cs, readArguments [])

/-- Read a declaration such as `varchar(64)`, in any case. Precision and scale keep their low byte. -/
def parse (s : String) : Except Error SqlType :=
  let (base, numbers) := splitDeclaration (lower (trim s)).toList
  let base := String.ofList base
  let first := numbers.head?
  let second := numbers.tail.head?
  if base ∈ ["smallint", "tinyint"] then .ok smallInt
  else if base ∈ ["int", "integer", "mediumint"] then .ok integer
  else if base ∈ ["bigint", "serial", "bigserial"] then .ok bigInt
  else if base ∈ ["float", "real"] then .ok float
  else if base ∈ ["double", "double precision"] then .ok double
  else if base ∈ ["decimal", "numeric"] then
    .ok (decimal (first.getD 10).toUInt8 (second.getD 0).toUInt8)
  else if base ∈ ["bool", "boolean"] then .ok boolean
  else if base = "char" then .ok (char (first.getD 1))
  else if base ∈ ["varchar", "character varying"] then .ok (varchar (first.getD 255))
  else if base ∈ ["text", "mediumtext", "longtext"] then .ok text
  else if base = "date" then .ok date
  else if base = "datetime" then .ok dateTime
  else if base ∈ ["timestamp", "timestamptz"] then .ok timestamp
  else if base = "time" then .ok time
  else if base ∈ ["json", "jsonb"] then .ok json
  else if base = "uuid" then .ok uuid
  else if base ∈ ["blob", "bytea", "binary", "varbinary"] then .ok binary
  else .error (.invalidArgument ("Unknown SQL type '" ++ base ++ "'"))

end SqlType

end RowMapper
