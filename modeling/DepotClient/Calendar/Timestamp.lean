import DepotClient.Calendar.Date

/-! # Server times

A `Timestamp` is a date with a time of day, in the server's own time zone and without naming it.
Second 60 is the leap second that can end any minute: it follows second 59 and precedes the next
minute. The time with which a record's missing fields are filled is `Timestamp.unset`.

Times are also counted in seconds since the start of 1970: `Timestamp.epochSeconds` and, the way
back, `Timestamp.ofEpochSeconds?`. -/

namespace DepotClient

/-- A date and a time of day. -/
structure Timestamp where
  /-- The date. -/
  date : Date
  /-- The hour, from 0 to 23. -/
  hour : Nat
  /-- The minute, from 0 to 59. -/
  minute : Nat
  /-- The second, from 0 to 60. -/
  second : Nat
  /-- The hour exists. -/
  hour_lt : hour < 24 := by decide
  /-- The minute exists. -/
  minute_lt : minute < 60 := by decide
  /-- The second exists or is the leap second. -/
  second_le : second ≤ 60 := by decide
deriving DecidableEq

namespace Timestamp

/-- The time with the given parts, if it exists. -/
def of? (year : Int) (month day hour minute second : Nat) : Option Timestamp :=
  (Date.of? year month day).bind fun date =>
    if h : hour < 24 ∧ minute < 60 ∧ second ≤ 60 then
      some ⟨date, hour, minute, second, h.1, h.2.1, h.2.2⟩
    else none

@[simp] theorem of?_self (t : Timestamp) :
    of? t.date.year t.date.month t.date.day t.hour t.minute t.second = some t := by
  simp [of?, t.hour_lt, t.minute_lt, t.second_le]

/-- The start of a date. -/
def midnight (date : Date) : Timestamp where
  date := date
  hour := 0
  minute := 0
  second := 0

/-- The time that stands for a missing one: the start of year 1. -/
def unset : Timestamp := midnight .dayOne

instance : Inhabited Timestamp := ⟨unset⟩

/-- Holds of every time but `unset`. -/
def isSet (t : Timestamp) : Bool := t ≠ unset

/-- Times are ordered by date, then hour, minute and second. -/
instance : Ord Timestamp where
  compare a b := (compare a.date b.date).then
    ((compare a.hour b.hour).then ((compare a.minute b.minute).then (compare a.second b.second)))

/-! ## Seconds since 1970 -/

/-- The day number of 1 January 1970. -/
def epochDay : Int := 719162

/-- The seconds since the start of the day. -/
def secondOfDay (t : Timestamp) : Nat := 3600 * t.hour + 60 * t.minute + t.second

/-- The seconds from the start of 1970 to this time, with days of 86400 seconds. -/
def epochSeconds (t : Timestamp) : Int :=
  86400 * (t.date.dayNumber - epochDay) + t.secondOfDay

/-- The start of a date moved by a number of seconds within the day. -/
def atSecond (date : Date) (n : Fin 86400) : Timestamp where
  date := date
  hour := n / 3600
  minute := n / 60 % 60
  second := n % 60
  hour_lt := by omega
  minute_lt := by omega
  second_le := by omega

/-- The time that lies the given number of seconds after the start of 1970, if its year is in
range. -/
def ofEpochSeconds? (s : Int) : Option Timestamp :=
  (Date.ofDayNumber? (s / 86400 + epochDay)).map fun date =>
    atSecond date ⟨(s % 86400).toNat, by omega⟩

end Timestamp

end DepotClient
