/-! # Dates of the proleptic Gregorian calendar

A `Date` is a year, a month and a day that exist, in the range of years that a server time can
have. Dates are numbered: `Date.dayNumber` counts the days since 1 January of year 1, and
`Date.ofDayNumber?` finds the date of a number. The count goes year by year and month by month;
the way back takes out cycles of 400, 100, 4 and 1 years, whose lengths are fixed. -/

namespace DepotClient

/-! ## Years and months -/

/-- Every fourth year is a leap year, except that of the full centuries only every fourth is. -/
def isLeap (year : Int) : Bool :=
  decide (year % 4 = 0 ∧ (year % 100 ≠ 0 ∨ year % 400 = 0))

/-- The lengths of the twelve months. -/
def monthLengths (leap : Bool) : List Nat :=
  [31, if leap then 29 else 28, 31, 30, 31, 30, 31, 31, 30, 31, 30, 31]

/-- The number of days in a month, counted from 1; zero for a month that does not exist. -/
def daysInMonth (year : Int) (month : Nat) : Nat :=
  if month = 0 then 0 else (monthLengths (isLeap year))[month - 1]?.getD 0

/-- There are twelve months, none of more than 31 days. -/
theorem daysInMonth_pos_le {year : Int} {month : Nat} (h : 0 < daysInMonth year month) :
    month ≤ 12 ∧ daysInMonth year month ≤ 31 := by
  unfold daysInMonth at h ⊢
  split at h
  · cases h
  · rename_i hm
    have hlen : (monthLengths (isLeap year)).length = 12 := rfl
    have hlt : month - 1 < (monthLengths (isLeap year)).length := by
      refine Nat.lt_of_not_le fun hge => ?_
      rw [List.getElem?_eq_none hge] at h
      cases h
    have hall : ∀ length ∈ monthLengths (isLeap year), length ≤ 31 := by
      cases isLeap year <;> decide
    rw [if_neg hm, List.getElem?_eq_getElem hlt]
    exact ⟨by omega, hall _ (List.getElem_mem hlt)⟩

/-- The first year of a server time. -/
def firstYear : Int := -262143

/-- The last year of a server time. -/
def lastYear : Int := 262142

/-! ## Dates -/

/-- Holds if the day exists and its year is in range. -/
def Date.Valid (year : Int) (month day : Nat) : Prop :=
  firstYear ≤ year ∧ year ≤ lastYear ∧ 1 ≤ day ∧ day ≤ daysInMonth year month

instance (year : Int) (month day : Nat) : Decidable (Date.Valid year month day) := by
  unfold Date.Valid; infer_instance

/-- A day of the calendar. -/
structure Date where
  /-- The year; year 0 precedes year 1. -/
  year : Int
  /-- The month, from 1 to 12. -/
  month : Nat
  /-- The day of the month, from 1. -/
  day : Nat
  /-- The day exists. -/
  valid : Date.Valid year month day
deriving DecidableEq

namespace Date

/-- The date with the given parts, if it exists. -/
def of? (year : Int) (month day : Nat) : Option Date :=
  if h : Valid year month day then some ⟨year, month, day, h⟩ else none

@[simp] theorem of?_self (d : Date) : of? d.year d.month d.day = some d := by
  simp [of?, d.valid]

theorem of?_eq_some_iff {year : Int} {month day : Nat} {d : Date} :
    of? year month day = some d ↔ d.year = year ∧ d.month = month ∧ d.day = day := by
  constructor
  · intro h
    unfold of? at h
    split at h
    · cases h; exact ⟨rfl, rfl, rfl⟩
    · cases h
  · rintro ⟨rfl, rfl, rfl⟩; exact of?_self d

/-- Dates are ordered by year, then month, then day. -/
instance : Ord Date where
  compare a b := (compare a.year b.year).then ((compare a.month b.month).then (compare a.day b.day))

/-- The first day of year 1. -/
def dayOne : Date := ⟨1, 1, 1, by decide⟩

instance : Inhabited Date := ⟨dayOne⟩

/-! ## Day numbers -/

/-- The number of days from 1 January of year 1 to 1 January of the given year. -/
def daysBeforeYear (year : Int) : Int :=
  365 * (year - 1) + (year - 1) / 4 - (year - 1) / 100 + (year - 1) / 400

/-- The length of all pieces laid end to end. -/
def totalLength : List Nat → Nat
  | [] => 0
  | length :: rest => length + totalLength rest

/-- The number of days of a year before the first of the given month. -/
def daysBeforeMonth (leap : Bool) (month : Nat) : Nat :=
  totalLength ((monthLengths leap).take (month - 1))

/-- The number of days from 1 January of year 1 to this date. -/
def dayNumber (d : Date) : Int :=
  daysBeforeYear d.year + daysBeforeMonth (isLeap d.year) d.month + (d.day - 1)

/-- The year of the day with the given number. A cycle of 400 years has 146097 days, of 100 years
36524, of 4 years 1461; the last day of a longer cycle belongs to its last shorter one. -/
def yearOfDayNumber (n : Int) : Int :=
  let inFourCenturies := n % 146097
  let century := min (inFourCenturies / 36524) 3
  let inCentury := inFourCenturies - 36524 * century
  let inFourYears := inCentury % 1461
  let year := min (inFourYears / 365) 3
  400 * (n / 146097) + 100 * century + 4 * (inCentury / 1461) + year + 1

/-- The position, in a list of lengths laid end to end, of the piece that holds the given offset,
and the offset within that piece. -/
def locate : List Nat → Nat → Nat × Nat
  | [], n => (0, n)
  | length :: rest, n =>
    if n < length then (0, n) else ((locate rest (n - length)).1 + 1, (locate rest (n - length)).2)

/-- The date with the given day number, if its year is in range. -/
def ofDayNumber? (n : Int) : Option Date :=
  let year := yearOfDayNumber n
  let place := locate (monthLengths (isLeap year)) (n - daysBeforeYear year).toNat
  of? year (place.1 + 1) (place.2 + 1)

end Date

end DepotClient
