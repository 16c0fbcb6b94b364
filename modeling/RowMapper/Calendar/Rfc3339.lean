import RowMapper.Calendar.Pattern

/-! # Timestamps with a zone offset

The strict form `2024-01-05T10:30:00.5+02:00`: fixed widths, no blanks, and an
offset or `Z` at the end. The result is the moment in UTC.
-/

namespace RowMapper.Calendar

open Text Decimal

def readExactly (width : Nat) (cs : List Char) : Option (Nat × List Char) :=
  let ds := cs.take width
  if ds.length = width && ds.all Char.isDigit then some (foldDigits 0 ds, cs.drop width) else none

def readChar (c : Char) : List Char → Option (List Char)
  | d :: cs => if d = c then some cs else none
  | [] => none

/-- Read an offset in seconds east of UTC, at most `23:59` either way. -/
def readOffset (cs : List Char) : Option (Int × List Char) :=
  match cs with
  | [] => none
  | c :: rest =>
    if c = 'Z' || c = 'z' then some (0, rest)
    else if c = '+' || c = '-' || c.toNat = 0x2212 then do
      let (hours, rest) ← readExactly 2 rest
      let rest ← readChar ':' rest
      let (minutes, rest) ← readExactly 2 rest
      if 24 ≤ hours || 60 ≤ minutes then none
      let seconds : Int := hours * 3600 + minutes * 60
      some (if c = '+' then seconds else -seconds, rest)
    else none

/-- Read a timestamp with an offset, as the moment in UTC. -/
def readRfc3339 (cs : List Char) : Option Timestamp := do
  let (year, rest) ← readExactly 4 cs
  let rest ← readChar '-' rest
  let (month, rest) ← readExactly 2 rest
  let rest ← readChar '-' rest
  let (day, rest) ← readExactly 2 rest
  let rest ← match rest with
    | 'T' :: rest => some rest
    | 't' :: rest => some rest
    | ' ' :: rest => some rest
    | _ => none
  let (hour, rest) ← readExactly 2 rest
  let rest ← readChar ':' rest
  let (minute, rest) ← readExactly 2 rest
  let rest ← readChar ':' rest
  let (second, rest) ← readExactly 2 rest
  let (nano, rest) ← match rest with
    | '.' :: rest => readNanos rest
    | rest => some (0, rest)
  let (offset, rest) ← readOffset rest
  if !rest.isEmpty then none
  let parts : Parts :=
    { year := year, month := month, day := day, hour := hour, minute := minute
      second := second, nano := nano }
  let local' ← parts.timestamp?
  local'.addSeconds? (-offset)

end RowMapper.Calendar
