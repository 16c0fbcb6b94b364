import RowMapper.Calendar.Rfc3339
import RowMapper.Schema.SqlType
import RowMapper.Value.Basic

/-! # Bringing values into the form of a column

A value assigned to a column is brought into the form of the column's type. What
has no such form becomes null; nothing fails. Change tracking compares values by
what they mean for the column.
-/

namespace RowMapper

/-- What is done to text on its way into a text column. -/
abbrev ImportFilter := String → String

namespace ImportFilter

def passThrough : ImportFilter := id

def escapeHtmlChar : Char → List Char
  | '&' => "&amp;".toList
  | '<' => "&lt;".toList
  | '>' => "&gt;".toList
  | '"' => "&quot;".toList
  | '\'' => "&#039;".toList
  | c => [c]

def escapeHtml : ImportFilter := fun s => String.ofList (s.toList.flatMap escapeHtmlChar)

end ImportFilter

namespace Value

open Text Decimal Calendar

def timestampPatterns : List (List PatternItem) :=
  let seconds := clock ++ [.fraction]
  let t : List PatternItem := [.literal 'T']
  let dotted : List PatternItem := [.day, .literal '.', .month, .literal '.', .year, .space]
  [isoDate ++ [.space] ++ clock, isoDate ++ t ++ clock, isoDate ++ [.space] ++ seconds,
    isoDate ++ t ++ seconds, isoDate ++ [.space] ++ hourMinute, isoDate ++ t ++ hourMinute,
    dotted ++ clock, dotted ++ hourMinute]

def datePatterns : List (List PatternItem) :=
  [isoDate, [.day, .literal '.', .month, .literal '.', .year],
    [.year, .literal '/', .month, .literal '/', .day]]

def ofEpoch (n : Int) : Option Timestamp :=
  Timestamp.ofEpochSecond? n 0 (Nat.succ_pos 1999999999)

/-- Read a trimmed text as a moment: epoch seconds of nine digits or more, a text with an offset,
or the first pattern that fits. -/
def readTimestamp (cs : List Char) : Option Timestamp :=
  if cs.isEmpty then none
  else if cs.all Char.isDigit && 8 < cs.length then (readInt64 cs).bind ofEpoch
  else match readRfc3339 cs with
    | some t => some t.wholeSecond
    | none =>
      match timestampPatterns.findSome? fun p => (readItems p {} cs).bind Parts.timestamp? with
      | some t => some t.wholeSecond
      | none =>
        (datePatterns.findSome? fun p => (readItems p {} cs).bind Parts.date?).map
          Timestamp.atMidnight

/-- The value as a moment, in whole seconds. A number counts the seconds since 1970, and a text is
read. -/
def toTimestamp? : Value → Option Timestamp
  | .timestamp t => some t.wholeSecond
  | .date d => some (Timestamp.atMidnight d)
  | .int32 n => ofEpoch n.toInt
  | .int64 n => ofEpoch n.toInt
  | .float x => if isFinite x then ofEpoch (toInt64Clamped x) else none
  | .text s => readTimestamp (trimChars s.toList)
  | _ => none

def toTime? : Value → Option TimeOfDay
  | .time t => some t.wholeSecond
  | .timestamp t => some t.time.wholeSecond
  | .text s =>
    let cs := trimChars s.toList
    match (readItems clock {} cs).bind Parts.time? with
    | some t => some t
    | none => match (readItems hourMinute {} cs).bind Parts.time? with
      | some t => some t
      | none => (readTimestamp cs).map Timestamp.time
  | _ => none

def isNow : Value → Bool
  | .text s => sameIgnoringAsciiCase (trim s) now
  | _ => false

/-- The integer form: whole numbers only; a text is read as an integer, else as a double. -/
def toIntegerForm : Value → Value
  | .int32 n => ofInt n.toInt
  | .int64 n => .int64 n
  | .bool b => ofInt (if b then 1 else 0)
  | .float x => if isIntegral x then ofInt (toInt64Clamped x) else .null
  | .text s =>
    let cs := trimChars s.toList
    match readInt64 cs with
    | some n => ofInt n
    | none => match readFloat cs with
      | some x => if isIntegral x then ofInt (toInt64Clamped x) else .null
      | none => .null
  | _ => .null

/-- The double form; a text may have a decimal comma. -/
def toFloatForm : Value → Value
  | .text s =>
    let cs := (trimChars s.toList).map fun c => if c = ',' then '.' else c
    match readFloat cs with
    | some x => .float x
    | none => .null
  | .bool b => .float (floatOfInt (if b then 1 else 0))
  | v => match v.toFloat? with
    | some x => .float x
    | none => .null

/-- The JSON form; a text that is no JSON becomes a JSON string. -/
def toJsonForm : Value → Value
  | .text s => .json ((Json.parse s).getD (.str s))
  | v => .json v.toJson

def toUuidForm : Value → Value
  | .uuid u => .uuid u
  | .text s => match Uuid.parse? (trim s) with
    | some u => .uuid u
    | none => .null
  | _ => .null

/-- Whether columns of the family keep the request for the current time. -/
def keepsNow : TypeFamily → Bool
  | .dateTime | .date | .time => true
  | _ => false

/-- The value in the form of a column's type. Null stays null, and so does the request for the
current time where the type keeps it. -/
def coerce (type : SqlType) (filter : ImportFilter) (v : Value) : Value :=
  if v.isNull then .null
  else if v.isNow && keepsNow type.family then .text now
  else match type.family with
    | .integer => v.toIntegerForm
    | .float => v.toFloatForm
    | .boolean => .bool (!v.isEmpty)
    | .text => .text (filter v.display)
    | .dateTime => (v.toTimestamp?.map Value.timestamp).getD .null
    | .date => (v.toTimestamp?.map fun t => Value.date t.date).getD .null
    | .time => (v.toTime?.map Value.time).getD .null
    | .json => v.toJsonForm
    | .uuid => v.toUuidForm
    | .binary => v

/-- Whether two values mean the same for a column: moments by time, numbers by magnitude. -/
def sameFor (type : SqlType) (a b : Value) : Bool :=
  if a.isNull || b.isNull then a.isNull && b.isNull
  else match type.family with
    | .dateTime => match a.toTimestamp?, b.toTimestamp? with
      | some s, some t => s == t
      | _, _ => a == b
    | .date => match a.toTimestamp?, b.toTimestamp? with
      | some s, some t => s.date == t.date
      | _, _ => a == b
    | .time => match a.toTime?, b.toTime? with
      | some s, some t => s == t
      | _, _ => a == b
    | .integer | .float => match a.toFloat?, b.toFloat? with
      | some x, some y => x == y
      | _, _ => a == b
    | .boolean => a.isEmpty == b.isEmpty
    | _ => a == b

end Value

end RowMapper
