import RowMapper.Calendar.Time
import RowMapper.Decimal.Reader
import RowMapper.Text.Blank

/-! # Patterns of date and time text

A pattern is a list of numbers and fixed characters. One pattern serves for
writing and for reading. Reading is more liberal: blanks may precede a number, a
space in the pattern stands for any number of blanks, and a number may have
fewer digits than are written.
-/

namespace RowMapper.Calendar

open Text Decimal

inductive PatternItem where
  | year
  | month
  | day
  | hour
  | minute
  | second
  /-- A point and the digits of the second's fraction, or nothing. -/
  | fraction
  | literal (c : Char)
  /-- One space when written, any number of blanks when read. -/
  | space
  deriving DecidableEq, Repr

structure Parts where
  year : Int := 0
  month : Nat := 1
  day : Nat := 1
  hour : Nat := 0
  minute : Nat := 0
  second : Nat := 0
  nano : Nat := 0

namespace Parts

def date? (p : Parts) : Option Date := Date.ofYmd? p.year p.month p.day

/-- The time of the numbers; second 60 is the leap second after second 59. -/
def time? (p : Parts) : Option TimeOfDay :=
  if p.second = 60 then TimeOfDay.ofParts? p.hour p.minute 59 (p.nano + 1000000000)
  else TimeOfDay.ofParts? p.hour p.minute p.second p.nano

def timestamp? (p : Parts) : Option Timestamp := do
  let date ← p.date?
  let time ← p.time?
  some ⟨date, time⟩

/-- The numbers of a date and a time; a leap second is second 60. -/
def ofDateTime (d : Date) (t : TimeOfDay) : Parts :=
  { year := d.year, month := d.month, day := d.day, hour := t.hour, minute := t.minute
    second := if t.nano < 1000000000 then t.second else t.second + 1
    nano := t.nano % 1000000000 }

end Parts

def padded (width n : Nat) : List Char :=
  let ds := (toString n).toList
  List.replicate (width - ds.length) '0' ++ ds

/-- A year: four digits, and a sign too outside the years 0 to 9999. -/
def yearChars (year : Int) : List Char :=
  if 0 ≤ year ∧ year ≤ 9999 then padded 4 year.toNat
  else (if year < 0 then '-' else '+') :: padded 4 year.natAbs

/-- A fraction of a second in three, six or nine places, or nothing when it is zero. -/
def fractionChars (nano : Nat) : List Char :=
  if nano = 0 then []
  else if nano % 1000000 = 0 then '.' :: padded 3 (nano / 1000000)
  else if nano % 1000 = 0 then '.' :: padded 6 (nano / 1000)
  else '.' :: padded 9 nano

def PatternItem.write (p : Parts) : PatternItem → List Char
  | .year => yearChars p.year
  | .month => padded 2 p.month
  | .day => padded 2 p.day
  | .hour => padded 2 p.hour
  | .minute => padded 2 p.minute
  | .second => padded 2 p.second
  | .fraction => fractionChars p.nano
  | .literal c => [c]
  | .space => [' ']

def writeItems (pattern : List PatternItem) (p : Parts) : List Char :=
  pattern.flatMap (PatternItem.write p)

/-- Read between one and `width` digits. -/
def readDigits (width : Nat) (cs : List Char) : Option (Nat × List Char) :=
  let ds := (cs.takeWhile Char.isDigit).take width
  if ds.isEmpty then none else some (foldDigits 0 ds, cs.drop ds.length)

/-- Read all the digits there are, at least one. -/
def readAllDigits (cs : List Char) : Option (Nat × List Char) :=
  readDigits cs.length cs

/-- Read a year: up to four digits, or any number of them after a sign. -/
def readYear : List Char → Option (Int × List Char)
  | '-' :: cs => (readAllDigits cs).map fun (n, rest) => (-(n : Int), rest)
  | '+' :: cs => (readAllDigits cs).map fun (n, rest) => ((n : Int), rest)
  | cs => (readDigits 4 cs).map fun (n, rest) => ((n : Int), rest)

/-- Read the digits of a fraction as nanoseconds; those past the ninth do not count. -/
def readNanos (cs : List Char) : Option (Nat × List Char) :=
  let ds := cs.takeWhile Char.isDigit
  if ds.isEmpty then none
  else
    let kept := ds.take 9
    some (foldDigits 0 kept * Nat.pow 10 (9 - kept.length), cs.dropWhile Char.isDigit)

def PatternItem.read (p : Parts) (f : PatternItem) (cs : List Char) : Option (Parts × List Char) :=
  let number := cs.dropWhile isBlank
  match f with
  | .year => (readYear number).map fun (n, rest) => ({ p with year := n }, rest)
  | .month => (readDigits 2 number).map fun (n, rest) => ({ p with month := n }, rest)
  | .day => (readDigits 2 number).map fun (n, rest) => ({ p with day := n }, rest)
  | .hour => (readDigits 2 number).map fun (n, rest) => ({ p with hour := n }, rest)
  | .minute => (readDigits 2 number).map fun (n, rest) => ({ p with minute := n }, rest)
  | .second => (readDigits 2 number).map fun (n, rest) => ({ p with second := n }, rest)
  | .fraction => match cs with
    | '.' :: cs => (readNanos cs).map fun (n, rest) => ({ p with nano := n }, rest)
    | cs => some (p, cs)
  | .literal c => match cs with
    | d :: cs => if d = c then some (p, cs) else none
    | [] => none
  | .space => some (p, number)

/-- Read the items of a pattern up to the end of the text. -/
def readItems : List PatternItem → Parts → List Char → Option Parts
  | [], p, [] => some p
  | [], _, _ :: _ => none
  | f :: fs, p, cs => (f.read p cs).bind fun (p, rest) => readItems fs p rest

def isoDate : List PatternItem := [.year, .literal '-', .month, .literal '-', .day]

def hourMinute : List PatternItem := [.hour, .literal ':', .minute]

def clock : List PatternItem := hourMinute ++ [.literal ':', .second]

/-- The pattern in which timestamps are written into SQL. -/
def timestampPattern : List PatternItem := isoDate ++ [.space] ++ clock

def Date.text (d : Date) : String :=
  String.ofList (writeItems isoDate (Parts.ofDateTime d TimeOfDay.midnight))

def TimeOfDay.text (t : TimeOfDay) : String :=
  String.ofList (writeItems (clock ++ [.fraction]) (Parts.ofDateTime Date.epoch t))

/-- A timestamp without its fraction. -/
def Timestamp.text (t : Timestamp) : String :=
  String.ofList (writeItems timestampPattern (Parts.ofDateTime t.date t.time))

end RowMapper.Calendar
