import RowMapper.Calendar.Date

/-! # Times of day and timestamps

A time of day counts seconds and nanoseconds. A leap second is the second
before it with a billion nanoseconds or more. A timestamp is a date with a time
of day, without a zone.
-/

namespace RowMapper.Calendar

/-- A time of day; a leap second has `1000000000 ≤ nano`. -/
structure TimeOfDay where
  hour : Nat
  minute : Nat
  second : Nat
  nano : Nat := 0
  hour_lt : hour < 24 := by decide
  minute_lt : minute < 60 := by decide
  second_lt : second < 60 := by decide
  nano_lt : nano < 2000000000 := by decide
  deriving DecidableEq

namespace TimeOfDay

def ofParts? (hour minute second nano : Nat) : Option TimeOfDay :=
  if h : hour < 24 ∧ minute < 60 ∧ second < 60 ∧ nano < 2000000000 then
    some ⟨hour, minute, second, nano, h.1, h.2.1, h.2.2.1, h.2.2.2⟩
  else none

def midnight : TimeOfDay := { hour := 0, minute := 0, second := 0 }

/-- The time without its nanoseconds; a leap second becomes the second before it. -/
def wholeSecond (t : TimeOfDay) : TimeOfDay :=
  { t with nano := 0, nano_lt := by decide }

def secondOfDay (t : TimeOfDay) : Nat :=
  t.hour * 3600 + t.minute * 60 + t.second

/-- The time that many seconds after midnight, modulo a day, with the given nanoseconds. -/
def ofSecondOfDay (n : Nat) (nano : Nat) (h : nano < 2000000000) : TimeOfDay :=
  { hour := n / 3600 % 24, minute := n / 60 % 60, second := n % 60, nano := nano
    hour_lt := Nat.mod_lt _ (by decide)
    minute_lt := Nat.mod_lt _ (by decide)
    second_lt := Nat.mod_lt _ (by decide)
    nano_lt := h }

theorem wholeSecond_eq {t : TimeOfDay} (h : t.nano = 0) : t.wholeSecond = t := by
  cases t
  simp_all [wholeSecond]

@[simp] theorem wholeSecond_wholeSecond (t : TimeOfDay) :
    t.wholeSecond.wholeSecond = t.wholeSecond := rfl

end TimeOfDay

structure Timestamp where
  date : Date
  time : TimeOfDay
  deriving DecidableEq

namespace Timestamp

def wholeSecond (t : Timestamp) : Timestamp :=
  { t with time := t.time.wholeSecond }

def epochSecond (t : Timestamp) : Int :=
  t.date.dayNumber * 86400 + t.time.secondOfDay

/-- The timestamp that many seconds after 1970-01-01 00:00:00, if it is in range. -/
def ofEpochSecond? (n : Int) (nano : Nat) (h : nano < 2000000000) : Option Timestamp :=
  (Date.ofDayNumber? (n / 86400)).map fun date =>
    ⟨date, TimeOfDay.ofSecondOfDay (n % 86400).toNat nano h⟩

/-- The timestamp moved by some seconds, if it stays in range; nanoseconds are kept. -/
def addSeconds? (t : Timestamp) (n : Int) : Option Timestamp :=
  ofEpochSecond? (t.epochSecond + n) t.time.nano t.time.nano_lt

def atMidnight (d : Date) : Timestamp := ⟨d, TimeOfDay.midnight⟩

end Timestamp

end RowMapper.Calendar
