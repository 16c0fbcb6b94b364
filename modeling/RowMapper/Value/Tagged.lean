import RowMapper.Calendar.Pattern
import RowMapper.Decimal.Reader
import RowMapper.Json.Access
import RowMapper.Value.Basic

/-! # Values with their kind, as JSON

A JSON form that keeps the kind of each value: null, booleans and texts stand for
themselves, and every other value is the one member of an object whose key names
the kind. A bare number is read as the value that JSON data would give.
-/

namespace RowMapper.Value

open Calendar

def taggedTimestamp : List Calendar.PatternItem := isoDate ++ [.literal 'T'] ++ clock ++ [.fraction]

def taggedTime : List Calendar.PatternItem := clock ++ [.fraction]

def toTagged : Value → Json
  | null => .null
  | bool b => .bool b
  | text s => .str s
  | int32 n => .obj [("i32", .int n.toInt)]
  | int64 n => .obj [("i64", .int n.toInt)]
  | float x => .obj [("f64", .str (Decimal.plainText x))]
  | bytes bs => .obj [("bytes", .arr (bs.map fun b => .int b.toNat))]
  | uuid u => .obj [("uuid", .str u.text)]
  | timestamp t => .obj [("ts", .str (String.ofList
      (writeItems taggedTimestamp (Parts.ofDateTime t.date t.time))))]
  | date d => .obj [("date", .str d.text)]
  | time t => .obj [("time", .str t.text)]
  | json j => .obj [("json", j)]

def readParts (pattern : List Calendar.PatternItem) (s : String) : Option Parts :=
  readItems pattern {} s.toList

def readByte : Json → Option UInt8
  | .int n => if 0 ≤ n ∧ n < 256 then some (UInt8.ofNat n.toNat) else none
  | _ => none

def ofTagged? : Json → Option Value
  | .obj [("i32", .int n)] => some (.int32 (Int32.ofInt n))
  | .obj [("i64", .int n)] => some (.int64 (Int64.ofInt n))
  | .obj [("f64", .str s)] => (Decimal.readFloat s.toList).map .float
  | .obj [("bytes", .arr items)] => (items.mapM readByte).map .bytes
  | .obj [("uuid", .str s)] => (Uuid.parse? s).map .uuid
  | .obj [("ts", .str s)] => ((readParts taggedTimestamp s).bind Parts.timestamp?).map .timestamp
  | .obj [("date", .str s)] => ((readParts isoDate s).bind Parts.date?).map .date
  | .obj [("time", .str s)] => ((readParts taggedTime s).bind Parts.time?).map .time
  | .obj [("json", j)] => some (.json j)
  | .obj _ | .arr _ => none
  | j => some (ofJson j)

def ofTagged (j : Json) : Except Error Value :=
  match ofTagged? j with
  | some v => .ok v
  | none => .error (Json.unexpected "a value" j)

def listToTagged (vs : List Value) : Json := .arr (vs.map toTagged)

def listOfTagged : Json → Except Error (List Value) := Json.each ofTagged

end RowMapper.Value

namespace RowMapper.Row

/-- A row as an array of pairs, so that the order of its columns is plain. -/
def toPairs (r : Row) : Json := .arr (r.map fun (name, v) => .arr [.str name, v.toTagged])

/-- Read a row from pairs; a repeated column has its last value in its first place. -/
def ofPairs (j : Json) : Except Error Row := Entries.ofPairs <$> Json.each (Json.pair Value.ofTagged) j

end RowMapper.Row
