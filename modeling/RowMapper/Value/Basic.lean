import RowMapper.Json.Reader
import RowMapper.Json.Printer
import RowMapper.Calendar.Pattern
import RowMapper.Uuid

/-! # Scalar values

The values that are exchanged with a database, their text, and the views that
read one kind of value as another.
-/

namespace RowMapper

/-- A scalar value of a column or a parameter. -/
inductive Value where
  | null
  | bool (b : Bool)
  | int32 (n : Int32)
  | int64 (n : Int64)
  | float (x : Float)
  | text (s : String)
  | bytes (bs : List UInt8)
  | uuid (u : Uuid)
  | timestamp (t : Calendar.Timestamp)
  | date (d : Calendar.Date)
  | time (t : Calendar.TimeOfDay)
  | json (j : Json)
  deriving Inhabited

namespace Value

open Decimal

/-- The text that asks the database for its current time. -/
def now : String := "NOW()"

def isNull : Value → Bool
  | .null => true
  | _ => false

/-- Null, false, zero, the empty text, the text `0` and no bytes at all are empty. -/
def isEmpty : Value → Bool
  | .null => true
  | .bool b => !b
  | .int32 n => n == 0
  | .int64 n => n == 0
  | .float x => x == 0
  | .text s => s == "" || s == "0"
  | .bytes bs => bs.isEmpty
  | _ => false

def isNumeric : Value → Bool
  | .int32 _ | .int64 _ | .float _ => true
  | _ => false

def ofInt (n : Int) : Value := .int64 (Int64.ofInt n)

def floatOfInt (n : Int) : Float :=
  if n < 0 then (Float.ofNat n.natAbs).neg else Float.ofNat n.toNat

def toInt? : Value → Option Int
  | .int32 n => some n.toInt
  | .int64 n => some n.toInt
  | .float x => if isIntegral x then some (toInt64Clamped x) else none
  | .text s => readInt64 (Text.trimChars s.toList)
  | .bool b => some (if b then 1 else 0)
  | _ => none

def toFloat? : Value → Option Float
  | .int32 n => some (floatOfInt n.toInt)
  | .int64 n => some (floatOfInt n.toInt)
  | .float x => some x
  | .text s => readFloat (Text.trimChars s.toList)
  | _ => none

def toBool? : Value → Option Bool
  | .bool b => some b
  | .int32 n => some (n != 0)
  | .int64 n => some (n != 0)
  | _ => none

def toText? : Value → Option String
  | .text s => some s
  | _ => none

/-- The text under which a value is displayed; bytes show their count only. -/
def display : Value → String
  | .null => "NULL"
  | .bool b => if b then "true" else "false"
  | .int32 n => toString n.toInt
  | .int64 n => toString n.toInt
  | .float x => plainText x
  | .text s => s
  | .bytes bs => "<" ++ toString bs.length ++ " bytes>"
  | .uuid u => u.text
  | .timestamp t => t.text
  | .date d => d.text
  | .time t => t.text
  | .json j => j.render

/-- The text that stands for a value as a key: the displayed text, and nothing for null. -/
def keyString : Value → String
  | .null => ""
  | v => v.display

def toJson : Value → Json
  | .null => .null
  | .bool b => .bool b
  | .int32 n => .int n.toInt
  | .int64 n => .int n.toInt
  | .float x => Json.ofFloat x
  | .text s => .str s
  | .bytes bs => .arr (bs.map fun b => .int b.toNat)
  | .uuid u => .str u.text
  | .timestamp t => .str t.text
  | .date d => .str d.text
  | .time t => .str t.text
  | .json j => j

/-- The value of a JSON value: arrays and objects stay JSON. -/
def ofJson : Json → Value
  | .null => .null
  | .bool b => .bool b
  | .int n => if fitsInt64 n then ofInt n else .float (floatOfInt n)
  | .float x => .float x
  | .str s => .text s
  | j => .json j

/-- Equality of values of one kind; values of different kinds differ. -/
def equal : Value → Value → Bool
  | .null, .null => true
  | .bool a, .bool b => a == b
  | .int32 a, .int32 b => a == b
  | .int64 a, .int64 b => a == b
  | .float a, .float b => a == b
  | .text a, .text b => a == b
  | .bytes a, .bytes b => a == b
  | .uuid a, .uuid b => a == b
  | .timestamp a, .timestamp b => a == b
  | .date a, .date b => a == b
  | .time a, .time b => a == b
  | .json a, .json b => a.equal b
  | _, _ => false

instance : BEq Value := ⟨equal⟩

@[simp] theorem isNull_iff {v : Value} : v.isNull = true ↔ v = .null := by
  cases v <;> simp [isNull]

end Value

/-- A row of a result: its columns with their values, in select-list order. -/
abbrev Row := Entries Value

namespace Row

def toJson (r : Row) : Json :=
  .obj (r.map fun (name, value) => (name, value.toJson))

def at? (r : Row) (index : Nat) : Option Value := (r[index]?).map Prod.snd

end Row

end RowMapper
