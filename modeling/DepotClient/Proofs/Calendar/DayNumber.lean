import Mathlib.Tactic.Ring
import DepotClient.Calendar.Date

/-! # Days and their numbers

The days of the calendar are numbered in order: `Date.dayNumber` counts year by year and month by
month, and `Date.ofDayNumber?` goes back by cycles of years and along the lengths of the months. The
two undo one another, so every number in range is that of one date.

* **`Date.locate_eq_iff`** — what it means to find a place among lengths laid end to end;
* **`Date.yearOfDayNumber_eq_iff`** — the year of a number is the one whose days surround it;
* **`Date.ofDayNumber?_eq_some_iff`** — finding the date of a number undoes numbering it;
* **`Date.exists_dayNumber_eq_iff`** — the numbers of dates are those from the first to the last day;
* **`Date.next?_eq_some_iff`** — the next day of the calendar has the next number;
* **`Date.compare_eq_lt_iff`** — earlier days have smaller numbers. -/

namespace DepotClient.Date

/-! ## Lengths laid end to end -/

theorem totalLength_take_succ (lengths : List Nat) (i : Nat) :
    totalLength (lengths.take (i + 1)) = totalLength (lengths.take i) + lengths[i]?.getD 0 := by
  induction lengths generalizing i with
  | nil => simp [totalLength]
  | cons length rest ih =>
    cases i with
    | zero => simp [totalLength]
    | succ i =>
      simp only [List.take_succ_cons, totalLength, ih i, List.getElem?_cons_succ]
      omega

/-- The more pieces, the longer they are. -/
theorem totalLength_take_mono (lengths : List Nat) {i j : Nat} (h : i ≤ j) :
    totalLength (lengths.take i) ≤ totalLength (lengths.take j) := by
  induction h with
  | refl => exact Nat.le_refl _
  | step _ ih =>
    rw [totalLength_take_succ]
    omega

/-- A place within a piece lies in front of the end of them all. -/
theorem totalLength_take_add_lt {lengths : List Nat} {i r : Nat} (hr : r < lengths[i]?.getD 0) :
    totalLength (lengths.take i) + r < totalLength lengths := by
  have hpiece := totalLength_take_succ lengths i
  have hle : totalLength (lengths.take (i + 1)) ≤ totalLength (lengths.take (lengths.length + i + 1)) :=
    totalLength_take_mono lengths (by omega)
  rw [List.take_of_length_le (by omega : lengths.length ≤ lengths.length + i + 1)] at hle
  omega

/-- **Finding a place among lengths laid end to end**: the piece and the offset within it, if the
place lies in front of the end of them all. -/
theorem locate_eq_iff {lengths : List Nat} {n i r : Nat} (h : n < totalLength lengths) :
    locate lengths n = (i, r) ↔ r < lengths[i]?.getD 0 ∧ totalLength (lengths.take i) + r = n := by
  induction lengths generalizing n i with
  | nil => cases h
  | cons length rest ih =>
    rw [totalLength] at h
    rw [locate]
    split
    · rename_i hn
      cases i with
      | zero =>
        simp only [Prod.mk.injEq, true_and, List.getElem?_cons_zero, Option.getD_some,
          List.take_zero, totalLength]
        omega
      | succ i =>
        simp only [Prod.mk.injEq, List.take_succ_cons, totalLength]
        omega
    · rename_i hn
      cases i with
      | zero =>
        simp only [Prod.mk.injEq, List.getElem?_cons_zero, Option.getD_some, List.take_zero,
          totalLength]
        omega
      | succ i =>
        have hrest : n - length < totalLength rest := by omega
        have hplace := ih (i := i) hrest
        rw [Prod.ext_iff] at hplace
        simp only [Prod.mk.injEq, List.getElem?_cons_succ, List.take_succ_cons, totalLength,
          Nat.add_right_cancel_iff]
        rw [hplace]
        omega

theorem locate_spec {lengths : List Nat} {n : Nat} (h : n < totalLength lengths) :
    (locate lengths n).2 < lengths[(locate lengths n).1]?.getD 0 ∧
      totalLength (lengths.take (locate lengths n).1) + (locate lengths n).2 = n :=
  (locate_eq_iff h).mp rfl

/-! ## Years -/

/-- A leap year has 366 days and any other 365. -/
theorem totalLength_monthLengths (leap : Bool) :
    totalLength (monthLengths leap) = if leap then 366 else 365 := by
  cases leap <;> decide

/-- A year is as long as its months. -/
theorem daysBeforeYear_succ (year : Int) :
    daysBeforeYear (year + 1) = daysBeforeYear year + totalLength (monthLengths (isLeap year)) := by
  rw [totalLength_monthLengths]
  unfold daysBeforeYear
  cases hyear : isLeap year with
  | true =>
    have hrule : year % 4 = 0 ∧ (year % 100 ≠ 0 ∨ year % 400 = 0) := of_decide_eq_true hyear
    simp only [if_true]
    omega
  | false =>
    have hrule : ¬(year % 4 = 0 ∧ (year % 100 ≠ 0 ∨ year % 400 = 0)) := of_decide_eq_false hyear
    simp only [Bool.false_eq_true, if_false]
    omega

/-- A later year begins later. -/
theorem daysBeforeYear_mono {year year' : Int} (h : year ≤ year') :
    daysBeforeYear year ≤ daysBeforeYear year' := by
  obtain ⟨years, rfl⟩ := Int.le.dest h
  clear h
  induction years with
  | zero => simp
  | succ years ih =>
    have hnext := daysBeforeYear_succ (year + years)
    have hyear : year + ((years + 1 : Nat) : Int) = year + years + 1 := by omega
    rw [hyear, hnext]
    omega

/-- The days before a year that is put together from cycles of 400, 100, 4 and 1 years. -/
theorem daysBeforeYear_cycles {cycle century fourYears year : Int}
    (hcentury : 0 ≤ century ∧ century ≤ 3) (hfourYears : 0 ≤ fourYears ∧ fourYears ≤ 24)
    (hyear : 0 ≤ year ∧ year ≤ 3) :
    daysBeforeYear (400 * cycle + 100 * century + 4 * fourYears + year + 1) =
      146097 * cycle + 36524 * century + 1461 * fourYears + 365 * year := by
  unfold daysBeforeYear
  have h4 : (400 * cycle + 100 * century + 4 * fourYears + year + 1 - 1) / 4 =
      100 * cycle + 25 * century + fourYears := by omega
  have h100 : (400 * cycle + 100 * century + 4 * fourYears + year + 1 - 1) / 100 =
      4 * cycle + century := by omega
  have h400 : (400 * cycle + 100 * century + 4 * fourYears + year + 1 - 1) / 400 = cycle := by omega
  rw [h4, h100, h400]
  omega

/-- The fourth of four years is a leap year, unless it ends one of the first three centuries. -/
theorem isLeap_fourth {cycle century fourYears : Int} (hfourYears : 0 ≤ fourYears ∧ fourYears ≤ 24)
    (hcentury : fourYears = 24 → century = 3) :
    isLeap (400 * cycle + 100 * century + 4 * fourYears + 3 + 1) = true := by
  rw [isLeap, decide_eq_true_eq]
  refine ⟨by omega, ?_⟩
  by_cases hlast : fourYears = 24
  · right
    rw [hlast, hcentury hlast]
    omega
  · left
    omega

/-- Four equal pieces and one day behind them: what is left in front of a day by the whole pieces that
fit, three at most, is less than a piece, or one piece in front of the last day. -/
theorem leftover_of_four {length n : Int} (hlength : 0 < length) (hn : 0 ≤ n ∧ n ≤ 4 * length) :
    (0 ≤ min (n / length) 3 ∧ min (n / length) 3 ≤ 3) ∧
      (0 ≤ n - length * min (n / length) 3 ∧ n - length * min (n / length) 3 ≤ length) ∧
      (n - length * min (n / length) 3 = length → min (n / length) 3 = 3) := by
  have hdiv : length * (n / length) + n % length = n := Int.mul_ediv_add_emod n length
  have hmod : 0 ≤ n % length := Int.emod_nonneg n (Int.ne_of_gt hlength)
  have hlt : n % length < length := Int.emod_lt_of_pos n hlength
  have hquot : 0 ≤ n / length := Int.ediv_nonneg hn.1 (Int.le_of_lt hlength)
  by_cases hle : n / length ≤ 3
  · rw [Int.min_eq_left hle]
    exact ⟨⟨hquot, hle⟩, ⟨by omega, by omega⟩, fun hfull => by omega⟩
  · have hfour : length * 4 ≤ length * (n / length) :=
      Int.mul_le_mul_of_nonneg_left (by omega) (Int.le_of_lt hlength)
    rw [Int.min_eq_right (by omega)]
    exact ⟨by decide, ⟨by omega, by omega⟩, fun _ => rfl⟩

/-- The cycles in front of a day, and the day within its year. Only the last of four years can have
a 366th day, and if it is the last of a century, then only the last of four centuries can. -/
theorem exists_cycles (n : Int) : ∃ century fourYears year day : Int,
    yearOfDayNumber n = 400 * (n / 146097) + 100 * century + 4 * fourYears + year + 1 ∧
      n = 146097 * (n / 146097) + 36524 * century + 1461 * fourYears + 365 * year + day ∧
      (0 ≤ century ∧ century ≤ 3) ∧ (0 ≤ fourYears ∧ fourYears ≤ 24) ∧ (0 ≤ year ∧ year ≤ 3) ∧
      (0 ≤ day ∧ day ≤ 365) ∧ (day = 365 → year = 3 ∧ (fourYears = 24 → century = 3)) := by
  have hcycle : n % 146097 = n - 146097 * (n / 146097) := Int.emod_def n 146097
  have hcentury := leftover_of_four (by decide : (0 : Int) < 36524)
    (⟨by omega, by omega⟩ : 0 ≤ n % 146097 ∧ n % 146097 ≤ 4 * 36524)
  generalize hr : n % 146097 - 36524 * min (n % 146097 / 36524) 3 = inCentury at hcentury
  have hfourYears : 0 ≤ inCentury / 1461 ∧ inCentury / 1461 ≤ 24 := by omega
  have hrest : inCentury % 1461 = inCentury - 1461 * (inCentury / 1461) := Int.emod_def inCentury 1461
  have hyear := leftover_of_four (by decide : (0 : Int) < 365)
    (⟨by omega, by omega⟩ : 0 ≤ inCentury % 1461 ∧ inCentury % 1461 ≤ 4 * 365)
  refine ⟨min (n % 146097 / 36524) 3, inCentury / 1461, min (inCentury % 1461 / 365) 3,
    inCentury % 1461 - 365 * min (inCentury % 1461 / 365) 3, ?_, ?_, hcentury.1, hfourYears, hyear.1,
    hyear.2.1, fun hday => ⟨hyear.2.2 hday, fun hlast => hcentury.2.2 ?_⟩⟩
  · rw [← hr]
    rfl
  · rw [hrest, ← hr, hcycle]
    ring
  · rw [hyear.2.2 hday, hrest, hlast] at hday
    calc inCentury = inCentury - 1461 * 24 - 365 * 3 + (1461 * 24 + 365 * 3) := by ring
      _ = 365 + (1461 * 24 + 365 * 3) := by rw [hday]
      _ = 36524 := by decide

/-- **A day number lies among those of its year.** -/
theorem daysBeforeYear_yearOfDayNumber (n : Int) :
    daysBeforeYear (yearOfDayNumber n) ≤ n ∧ n < daysBeforeYear (yearOfDayNumber n + 1) := by
  obtain ⟨century, fourYears, year, day, hyear, hn, hcenturies, hfours, hyears, hdays, hlast⟩ :=
    exists_cycles n
  have hbefore : daysBeforeYear (yearOfDayNumber n) =
      146097 * (n / 146097) + 36524 * century + 1461 * fourYears + 365 * year := by
    rw [hyear]
    exact daysBeforeYear_cycles hcenturies hfours hyears
  rw [daysBeforeYear_succ, totalLength_monthLengths, hbefore]
  by_cases hday : day = 365
  · obtain ⟨hfourth, hcentury⟩ := hlast hday
    have hleap : isLeap (yearOfDayNumber n) = true := by
      rw [hyear, hfourth]
      exact isLeap_fourth hfours hcentury
    rw [hleap, if_pos rfl]
    omega
  · have hlength : 365 ≤ if isLeap (yearOfDayNumber n) = true then 366 else 365 := by
      split <;> decide
    omega

/-- **The year of a day number** is the one whose days surround it. -/
theorem yearOfDayNumber_eq_iff {n year : Int} :
    yearOfDayNumber n = year ↔ daysBeforeYear year ≤ n ∧ n < daysBeforeYear (year + 1) := by
  obtain ⟨hfirst, hlast⟩ := daysBeforeYear_yearOfDayNumber n
  constructor
  · rintro rfl
    exact ⟨hfirst, hlast⟩
  · rintro ⟨hfirst', hlast'⟩
    -- of two different years the later one begins behind the days of the other
    obtain hlt | heq | hgt := Int.lt_trichotomy (yearOfDayNumber n) year
    · have := daysBeforeYear_mono (Int.add_one_le_of_lt hlt)
      omega
    · exact heq
    · have := daysBeforeYear_mono (Int.add_one_le_of_lt hgt)
      omega

/-! ## Dates -/

variable {d e : Date}

/-- The month and the day of a date, both counted from 0, are a place in its year. -/
theorem place_of_valid (d : Date) :
    ∃ month day : Nat, d.month = month + 1 ∧ d.day = day + 1 ∧
      day < (monthLengths (isLeap d.year))[month]?.getD 0 := by
  obtain ⟨-, -, hday, hle⟩ := d.valid
  unfold daysInMonth at hle
  split at hle
  · omega
  · exact ⟨d.month - 1, d.day - 1, by omega, by omega, by omega⟩

@[simp] theorem daysInMonth_succ (year : Int) (month : Nat) :
    daysInMonth year (month + 1) = (monthLengths (isLeap year))[month]?.getD 0 := by
  rw [daysInMonth, if_neg (Nat.succ_ne_zero month), Nat.add_sub_cancel]

/-- The day number of a date, from its month and its day counted from 0. -/
theorem dayNumber_eq {month day : Nat} (hmonth : d.month = month + 1) (hday : d.day = day + 1) :
    d.dayNumber =
      daysBeforeYear d.year + (totalLength ((monthLengths (isLeap d.year)).take month) + day : Nat) := by
  rw [dayNumber, daysBeforeMonth, hmonth, hday, Nat.add_sub_cancel]
  omega

/-- The days of a year are numbered from its beginning to that of the next year. -/
theorem dayNumber_mem_year (d : Date) :
    daysBeforeYear d.year ≤ d.dayNumber ∧ d.dayNumber < daysBeforeYear (d.year + 1) := by
  obtain ⟨month, day, hmonth, hday, hplace⟩ := d.place_of_valid
  have hlt := totalLength_take_add_lt hplace
  rw [dayNumber_eq hmonth hday, daysBeforeYear_succ]
  omega

/-- **Finding the date of a number undoes numbering it.** -/
theorem ofDayNumber?_dayNumber (d : Date) : ofDayNumber? d.dayNumber = some d := by
  obtain ⟨month, day, hmonth, hday, hplace⟩ := d.place_of_valid
  have hyear : yearOfDayNumber d.dayNumber = d.year := yearOfDayNumber_eq_iff.mpr d.dayNumber_mem_year
  have hoffset : (d.dayNumber - daysBeforeYear d.year).toNat =
      totalLength ((monthLengths (isLeap d.year)).take month) + day := by
    rw [dayNumber_eq hmonth hday]
    omega
  have hlocate : locate (monthLengths (isLeap d.year)) (d.dayNumber - daysBeforeYear d.year).toNat =
      (month, day) := by
    rw [hoffset, locate_eq_iff (totalLength_take_add_lt hplace)]
    exact ⟨hplace, rfl⟩
  simp only [ofDayNumber?, hyear, hlocate, ← hmonth, ← hday, of?_self]

/-- **The date that is found has the number.** -/
theorem dayNumber_of_ofDayNumber? {n : Int} (h : ofDayNumber? n = some d) : d.dayNumber = n := by
  obtain ⟨hyear, hmonth, hday⟩ := of?_eq_some_iff.mp h
  obtain ⟨hfirst, hlast⟩ := daysBeforeYear_yearOfDayNumber n
  rw [daysBeforeYear_succ] at hlast
  rw [← hyear] at hfirst hlast hmonth hday
  have hlt : (n - daysBeforeYear d.year).toNat < totalLength (monthLengths (isLeap d.year)) := by
    omega
  obtain ⟨-, hplace⟩ := locate_spec hlt
  rw [dayNumber_eq hmonth hday, hplace]
  omega

theorem ofDayNumber?_eq_some_iff {n : Int} : ofDayNumber? n = some d ↔ d.dayNumber = n := by
  constructor
  · exact dayNumber_of_ofDayNumber?
  · rintro rfl
    exact d.ofDayNumber?_dayNumber

/-- Different dates have different numbers. -/
theorem dayNumber_inj : d.dayNumber = e.dayNumber ↔ d = e := by
  refine ⟨fun h => ?_, congrArg dayNumber⟩
  exact Option.some.inj ((h ▸ d.ofDayNumber?_dayNumber).symm.trans e.ofDayNumber?_dayNumber)

/-! ## The first and the last day -/

/-- The first day of a server time. -/
def first : Date := ⟨firstYear, 1, 1, by decide⟩

/-- The last day of a server time. -/
def last : Date := ⟨lastYear, 12, 31, by decide⟩

/-- A day number is that of a date if its year is in range. -/
theorem exists_dayNumber_eq_of_year {n : Int}
    (h : firstYear ≤ yearOfDayNumber n ∧ yearOfDayNumber n ≤ lastYear) :
    ∃ d : Date, d.dayNumber = n := by
  obtain ⟨hfirst, hlast⟩ := daysBeforeYear_yearOfDayNumber n
  rw [daysBeforeYear_succ] at hlast
  have hlt : (n - daysBeforeYear (yearOfDayNumber n)).toNat <
      totalLength (monthLengths (isLeap (yearOfDayNumber n))) := by omega
  obtain ⟨hplace, -⟩ := locate_spec hlt
  have hvalid : Valid (yearOfDayNumber n)
      ((locate (monthLengths (isLeap (yearOfDayNumber n)))
        (n - daysBeforeYear (yearOfDayNumber n)).toNat).1 + 1)
      ((locate (monthLengths (isLeap (yearOfDayNumber n)))
        (n - daysBeforeYear (yearOfDayNumber n)).toNat).2 + 1) :=
    ⟨h.1, h.2, Nat.le_add_left _ _, hplace⟩
  exact ⟨_, dayNumber_of_ofDayNumber? (dif_pos hvalid)⟩

/-- **The numbers of dates** are those from the first to the last day, without a gap. -/
theorem exists_dayNumber_eq_iff {n : Int} :
    (∃ d : Date, d.dayNumber = n) ↔ first.dayNumber ≤ n ∧ n ≤ last.dayNumber := by
  have hfirst : first.dayNumber = daysBeforeYear firstYear := by decide
  have hlast : last.dayNumber = daysBeforeYear (lastYear + 1) - 1 := by decide
  rw [hfirst, hlast]
  constructor
  · rintro ⟨d, rfl⟩
    obtain ⟨hbegin, hend⟩ := d.dayNumber_mem_year
    obtain ⟨hmin, hmax, -⟩ := d.valid
    have hlow := daysBeforeYear_mono hmin
    have hhigh := daysBeforeYear_mono (Int.add_le_add_right hmax 1)
    omega
  · rintro ⟨hlow, hhigh⟩
    obtain ⟨hbegin, hend⟩ := daysBeforeYear_yearOfDayNumber n
    refine exists_dayNumber_eq_of_year ⟨?_, ?_⟩
    · by_contra hyear
      have hearlier := daysBeforeYear_mono (Int.add_one_le_of_lt (Int.lt_of_not_ge hyear))
      omega
    · by_contra hyear
      have hlater := daysBeforeYear_mono (Int.add_one_le_of_lt (Int.lt_of_not_ge hyear))
      omega

/-! ## The next day -/

/-- The next day: of the same month if there is one, else the first of the next month, or of the next
year behind December. Behind the last day there is none. -/
def next? (d : Date) : Option Date :=
  if d.day < daysInMonth d.year d.month then of? d.year d.month (d.day + 1)
  else if d.month < 12 then of? d.year (d.month + 1) 1
  else of? (d.year + 1) 1 1

theorem dayNumber_of_next? (h : d.next? = some e) : e.dayNumber = d.dayNumber + 1 := by
  obtain ⟨month, day, hmonth, hday, hplace⟩ := d.place_of_valid
  have hend := totalLength_take_succ (monthLengths (isLeap d.year)) month
  rw [dayNumber_eq hmonth hday]
  unfold next? at h
  rw [hmonth, daysInMonth_succ, hday] at h
  split at h
  · obtain ⟨hyear', hmonth', hday'⟩ := of?_eq_some_iff.mp h
    rw [dayNumber_eq hmonth' hday', hyear']
    omega
  · split at h
    · obtain ⟨hyear', hmonth', hday'⟩ := of?_eq_some_iff.mp h
      rw [dayNumber_eq hmonth' hday', hyear']
      omega
    · obtain ⟨hyear', hmonth', hday'⟩ := of?_eq_some_iff.mp h
      -- behind December the whole year is over
      have hlength : (monthLengths (isLeap d.year)).length ≤ month + 1 := by
        have htwelve : (monthLengths (isLeap d.year)).length = 12 := rfl
        omega
      rw [List.take_of_length_le hlength] at hend
      rw [dayNumber_eq hmonth' hday', hyear', daysBeforeYear_succ, List.take_zero, totalLength]
      omega

/-- Each of the twelve months has a first day. -/
theorem one_le_daysInMonth (year : Int) {month : Nat} (h : month < 12) :
    1 ≤ daysInMonth year (month + 1) := by
  have hall : ∀ leap : Bool, ∀ month < 12, 1 ≤ (monthLengths leap)[month]?.getD 0 := by decide
  rw [daysInMonth_succ]
  exact hall _ month h

/-- Behind the end of the last December there is no day. -/
theorem eq_last (hyear : d.year = lastYear) (hmonth : ¬d.month < 12)
    (hday : ¬d.day < daysInMonth d.year d.month) : d = last := by
  obtain ⟨-, -, hfirst, hlength⟩ := d.valid
  have htwelve : d.month ≤ 12 := (daysInMonth_pos_le (Nat.lt_of_lt_of_le hfirst hlength)).1
  have hdecember : d.month = 12 := by omega
  have hlastDay : d.day = 31 := by
    rw [hyear, hdecember] at hday hlength
    have hlong : daysInMonth lastYear 12 = 31 := by decide
    omega
  cases d
  simp_all [last]

/-- Every day but the last one has a next day. -/
theorem isSome_next? (h : d ≠ last) : d.next?.isSome = true := by
  obtain ⟨hmin, hmax, hfirst, hlength⟩ := d.valid
  have hsome : ∀ {year : Int} {month day : Nat}, Valid year month day →
      (of? year month day).isSome = true := fun hvalid => by rw [of?, dif_pos hvalid]; rfl
  unfold next?
  split
  · rename_i hday
    exact hsome ⟨hmin, hmax, by omega, hday⟩
  · rename_i hday
    split
    · rename_i hmonth
      exact hsome ⟨hmin, hmax, Nat.le_refl 1, one_le_daysInMonth d.year hmonth⟩
    · rename_i hmonth
      have hyear : d.year ≠ lastYear := fun hyear => h (eq_last hyear hmonth hday)
      have hnext : firstYear ≤ d.year + 1 ∧ d.year + 1 ≤ lastYear := ⟨by omega, by omega⟩
      exact hsome ⟨hnext.1, hnext.2, Nat.le_refl 1, one_le_daysInMonth _ (by decide)⟩

/-- **The next day has the next number**, and no other day has. -/
theorem next?_eq_some_iff : d.next? = some e ↔ e.dayNumber = d.dayNumber + 1 := by
  refine ⟨dayNumber_of_next?, fun h => ?_⟩
  have hlast : e.dayNumber ≤ last.dayNumber := (exists_dayNumber_eq_iff.mp ⟨e, rfl⟩).2
  have hne : d ≠ last := by
    rintro rfl
    omega
  obtain ⟨e', hnext⟩ := Option.isSome_iff_exists.mp (isSome_next? hne)
  have hsame : e'.dayNumber = e.dayNumber := (dayNumber_of_next? hnext).trans h.symm
  rw [hnext, dayNumber_inj.mp hsame]

/-! ## The order of days -/

theorem compare_eq_lt_iff_parts : compare d e = .lt ↔
    d.year < e.year ∨ d.year = e.year ∧ (d.month < e.month ∨ d.month = e.month ∧ d.day < e.day) := by
  change (compare d.year e.year).then ((compare d.month e.month).then (compare d.day e.day)) = .lt ↔ _
  simp only [Ordering.then_eq_lt, Int.compare_eq_lt, Int.compare_eq_eq, Nat.compare_eq_lt,
    Nat.compare_eq_eq]

theorem compare_eq_eq_iff : compare d e = .eq ↔ d = e := by
  change (compare d.year e.year).then ((compare d.month e.month).then (compare d.day e.day)) = .eq ↔ _
  simp only [Ordering.then_eq_eq, Int.compare_eq_eq, Nat.compare_eq_eq]
  obtain ⟨year, month, day, hd⟩ := d
  obtain ⟨year', month', day', he⟩ := e
  rw [Date.mk.injEq]

theorem dayNumber_lt_of_compare (h : compare d e = .lt) : d.dayNumber < e.dayNumber := by
  obtain ⟨month, day, hmonth, hday, hplace⟩ := d.place_of_valid
  obtain ⟨month', day', hmonth', hday', -⟩ := e.place_of_valid
  obtain hyear | ⟨hyear, hlt | ⟨heq, hlt⟩⟩ := compare_eq_lt_iff_parts.mp h
  · have hend := d.dayNumber_mem_year.2
    have hbegin := e.dayNumber_mem_year.1
    have hyears := daysBeforeYear_mono (Int.add_one_le_of_lt hyear)
    omega
  · have hmonths := totalLength_take_mono (monthLengths (isLeap d.year)) (by omega : month + 1 ≤ month')
    rw [totalLength_take_succ] at hmonths
    rw [dayNumber_eq hmonth hday, dayNumber_eq hmonth' hday', ← hyear]
    omega
  · obtain rfl : month = month' := by omega
    rw [dayNumber_eq hmonth hday, dayNumber_eq hmonth' hday', ← hyear]
    omega

/-- **Earlier days have smaller numbers.** -/
theorem compare_eq_lt_iff : compare d e = .lt ↔ d.dayNumber < e.dayNumber := by
  refine ⟨dayNumber_lt_of_compare, fun h => ?_⟩
  by_contra hlt
  -- else the days are the same, or the other one is earlier
  by_cases hgt : compare e d = .lt
  · have := dayNumber_lt_of_compare hgt
    omega
  · rw [compare_eq_lt_iff_parts] at hlt hgt
    have hsame : d = e := by
      obtain ⟨year, month, day, hd⟩ := d
      obtain ⟨year', month', day', he⟩ := e
      simp only [Date.mk.injEq]
      simp only at hlt hgt
      omega
    rw [hsame] at h
    omega

end DepotClient.Date
