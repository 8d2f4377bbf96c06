import DepotClient.Calendar.Layout
import DepotClient.Proofs.Calendar.DayNumber

/-! # Times given in seconds are exact

A clock without leap seconds goes on from second to second and, at midnight, from day to day
(`Timestamp.tick?`). The time of a count of seconds is the one that this clock shows when it has gone
on, or back, so often from the start of 1970; there is such a time for each count from that of the
first to that of the last representable second.

* **`Timestamp.ofEpochSeconds?_eq_some_iff`** — finding the time of a count undoes counting;
* **`Timestamp.tick?_eq_some_iff`** — a tick of the clock adds one to the count;
* **`Timestamp.apart_iff`** — so counts tell how many ticks lie between two times;
* **`Timestamp.compare_eq_lt_iff`** — and which one is earlier;
* **`zoneSeconds_bound`** — an advertised distance is less than 101 hours;
* **`Timestamp.ofEpoch_exact`** — the time of a count given as text. -/

namespace DepotClient

namespace Timestamp

variable {t u : Timestamp} {s : Int}

/-! ## Counting seconds -/

theorem secondOfDay_lt (ht : t.second < 60) : t.secondOfDay < 86400 := by
  have hhour := t.hour_lt
  have hminute := t.minute_lt
  unfold secondOfDay
  omega

@[simp] theorem secondOfDay_atSecond (date : Date) (n : Fin 86400) :
    (atSecond date n).secondOfDay = n := by
  simp only [secondOfDay, atSecond]
  omega

theorem atSecond_secondOfDay (ht : t.second < 60) :
    atSecond t.date ⟨t.secondOfDay, secondOfDay_lt ht⟩ = t := by
  obtain ⟨date, hour, minute, second, hhour, hminute, -⟩ := t
  -- minute and second stay below 60, so dividing by 3600 and 60 takes the sum apart
  simp only [atSecond, secondOfDay, mk.injEq, true_and]
  simp only at ht
  omega

/-- **Finding the time of a count undoes counting.** -/
theorem ofEpochSeconds?_eq_some_iff :
    ofEpochSeconds? s = some t ↔ t.second < 60 ∧ t.epochSeconds = s := by
  constructor
  · intro h
    obtain ⟨date, hdate, rfl⟩ := Option.map_eq_some_iff.mp h
    have hday : date.dayNumber = s / 86400 + epochDay := Date.ofDayNumber?_eq_some_iff.mp hdate
    refine ⟨Nat.mod_lt _ (by decide), ?_⟩
    rw [epochSeconds, secondOfDay_atSecond]
    change 86400 * (date.dayNumber - epochDay) + ((s % 86400).toNat : Int) = s
    omega
  · rintro ⟨ht, rfl⟩
    -- also in front of 1970 the remainder by 86400 is the second of the day
    have hlt := secondOfDay_lt ht
    have hday : t.epochSeconds / 86400 + epochDay = t.date.dayNumber := by
      unfold epochSeconds
      omega
    have hsecond : (t.epochSeconds % 86400).toNat = t.secondOfDay := by
      unfold epochSeconds
      omega
    simp only [ofEpochSeconds?, hday, hsecond, Date.ofDayNumber?_dayNumber, Option.map_some,
      atSecond_secondOfDay ht]

/-- Different times have different counts, unless they are leap seconds. -/
theorem epochSeconds_inj (ht : t.second < 60) (hu : u.second < 60) :
    t.epochSeconds = u.epochSeconds ↔ t = u := by
  refine ⟨fun h => ?_, congrArg epochSeconds⟩
  have hfound : ofEpochSeconds? u.epochSeconds = some t := ofEpochSeconds?_eq_some_iff.mpr ⟨ht, h⟩
  rw [ofEpochSeconds?_eq_some_iff.mpr ⟨hu, rfl⟩] at hfound
  exact (Option.some.inj hfound).symm

/-! ## The representable range -/

/-- The start of 1970, from which seconds are counted. -/
def epoch : Timestamp := midnight ⟨1970, 1, 1, by decide⟩

/-- The first second of a server time. -/
def earliest : Timestamp := midnight .first

/-- The last second of a server time. -/
def latest : Timestamp := { date := .last, hour := 23, minute := 59, second := 59 }

/-- Holds of the counts from that of the first to that of the last second. -/
def InRange (s : Int) : Prop := earliest.epochSeconds ≤ s ∧ s ≤ latest.epochSeconds

instance (s : Int) : Decidable (InRange s) := by
  unfold InRange; infer_instance

@[simp] theorem epochSeconds_epoch : epoch.epochSeconds = 0 := by decide

theorem inRange_iff : InRange s ↔ -8334601228800 ≤ s ∧ s ≤ 8210266876799 := by
  have hearliest : earliest.epochSeconds = -8334601228800 := by decide
  have hlatest : latest.epochSeconds = 8210266876799 := by decide
  rw [InRange, hearliest, hlatest]

/-- **The counts of times** are those in range, without a gap. -/
theorem exists_epochSeconds_eq_iff :
    (∃ t : Timestamp, t.second < 60 ∧ t.epochSeconds = s) ↔ InRange s := by
  have hearliest : earliest.epochSeconds = 86400 * (Date.first.dayNumber - epochDay) := by decide
  have hlatest : latest.epochSeconds = 86400 * (Date.last.dayNumber - epochDay) + 86399 := by decide
  rw [InRange, hearliest, hlatest]
  constructor
  · rintro ⟨t, ht, rfl⟩
    have hday := Date.exists_dayNumber_eq_iff.mp ⟨t.date, rfl⟩
    have hsecond := secondOfDay_lt ht
    unfold epochSeconds
    omega
  · intro h
    -- the first and the last count are those of whole days, so the day of any other one exists too
    obtain ⟨date, hdate⟩ : ∃ date : Date, date.dayNumber = s / 86400 + epochDay :=
      Date.exists_dayNumber_eq_iff.mpr ⟨by omega, by omega⟩
    have hsecond : (s % 86400).toNat < 86400 := by omega
    refine ⟨atSecond date ⟨(s % 86400).toNat, hsecond⟩, Nat.mod_lt _ (by decide), ?_⟩
    rw [epochSeconds, secondOfDay_atSecond]
    change 86400 * (date.dayNumber - epochDay) + ((s % 86400).toNat : Int) = s
    omega

theorem inRange_epochSeconds (ht : t.second < 60) : InRange t.epochSeconds :=
  exists_epochSeconds_eq_iff.mp ⟨t, ht, rfl⟩

/-- There is a time for each count in range, and for no other. -/
theorem isSome_ofEpochSeconds? : (ofEpochSeconds? s).isSome = true ↔ InRange s := by
  rw [Option.isSome_iff_exists, ← exists_epochSeconds_eq_iff]
  exact exists_congr fun t => ofEpochSeconds?_eq_some_iff

/-! ## The ticks of the clock -/

/-- The time one second later, on a clock without leap seconds. Behind the last second there is
none. -/
def tick? (t : Timestamp) : Option Timestamp :=
  if h : t.second < 59 then some { t with second := t.second + 1, second_le := by omega }
  else if h : t.minute < 59 then
    some { midnight t.date with
      hour := t.hour, minute := t.minute + 1, hour_lt := t.hour_lt, minute_lt := by omega }
  else if h : t.hour < 23 then some { midnight t.date with hour := t.hour + 1, hour_lt := by omega }
  else t.date.next?.map midnight

theorem epochSeconds_of_tick? (ht : t.second < 60) (h : t.tick? = some u) :
    u.second < 60 ∧ u.epochSeconds = t.epochSeconds + 1 := by
  have hhour := t.hour_lt
  have hminute := t.minute_lt
  unfold tick? at h
  split at h
  · obtain rfl := Option.some.inj h
    simp only [epochSeconds, secondOfDay]
    omega
  · split at h
    · obtain rfl := Option.some.inj h
      simp only [epochSeconds, secondOfDay, midnight]
      omega
    · split at h
      · obtain rfl := Option.some.inj h
        simp only [epochSeconds, secondOfDay, midnight]
        omega
      · -- at midnight the next day begins
        obtain ⟨date, hdate, rfl⟩ := Option.map_eq_some_iff.mp h
        have hday := Date.dayNumber_of_next? hdate
        simp only [epochSeconds, secondOfDay, midnight]
        omega

/-- In front of another time the clock goes on: at midnight, the day of that time is the next one. -/
theorem exists_tick? (ht : t.second < 60) (hu : u.second < 60)
    (hcount : u.epochSeconds = t.epochSeconds + 1) : ∃ v, t.tick? = some v := by
  have hhour := t.hour_lt
  have hminute := t.minute_lt
  unfold tick?
  split
  · exact ⟨_, rfl⟩
  · split
    · exact ⟨_, rfl⟩
    · split
      · exact ⟨_, rfl⟩
      · have hend : t.secondOfDay = 86399 := by
          unfold secondOfDay
          omega
        have hsecond := secondOfDay_lt hu
        have hnext : t.date.next? = some u.date := by
          rw [Date.next?_eq_some_iff]
          unfold epochSeconds at hcount
          omega
        exact ⟨midnight u.date, by rw [hnext, Option.map_some]⟩

/-- **A tick adds one to the count**, and it leads to no other time. -/
theorem tick?_eq_some_iff (ht : t.second < 60) :
    t.tick? = some u ↔ u.second < 60 ∧ u.epochSeconds = t.epochSeconds + 1 := by
  constructor
  · intro h
    exact epochSeconds_of_tick? ht h
  · rintro ⟨hu, hcount⟩
    obtain ⟨v, hv⟩ := exists_tick? ht hu hcount
    obtain ⟨hsecond, hcount'⟩ := epochSeconds_of_tick? ht hv
    rw [hv, (epochSeconds_inj hsecond hu).mp (hcount'.trans hcount.symm)]

/-- The time after so many ticks. -/
def later? (t : Timestamp) : Nat → Option Timestamp
  | 0 => some t
  | n + 1 => (t.later? n).bind tick?

@[simp] theorem later?_zero (t : Timestamp) : t.later? 0 = some t := rfl

/-- **Ticks are counted**: so many of them add their number to the count. -/
theorem later?_eq_some_iff (ht : t.second < 60) {n : Nat} :
    t.later? n = some u ↔ u.second < 60 ∧ u.epochSeconds = t.epochSeconds + n := by
  induction n generalizing u with
  | zero =>
    rw [later?, Option.some_inj]
    constructor
    · rintro rfl
      exact ⟨ht, by omega⟩
    · rintro ⟨hu, hcount⟩
      exact (epochSeconds_inj ht hu).mp (by omega)
  | succ n ih =>
    rw [later?, Option.bind_eq_some_iff]
    constructor
    · rintro ⟨v, hv, hu⟩
      obtain ⟨hsecond, hcount⟩ := ih.mp hv
      obtain ⟨hsecond', hcount'⟩ := (tick?_eq_some_iff hsecond).mp hu
      exact ⟨hsecond', by omega⟩
    · rintro ⟨hu, hcount⟩
      -- the count before the last tick lies between those of two times
      obtain ⟨v, hv, hcount'⟩ : ∃ v : Timestamp, v.second < 60 ∧
          v.epochSeconds = t.epochSeconds + n := by
        have hfirst := (inRange_epochSeconds ht).1
        have hlast := (inRange_epochSeconds hu).2
        exact exists_epochSeconds_eq_iff.mpr ⟨by omega, by omega⟩
      exact ⟨v, ih.mpr ⟨hv, hcount'⟩, (tick?_eq_some_iff hv).mpr ⟨hu, by omega⟩⟩

/-- Holds if so many ticks lead from the one time to the other or, for a negative number, so many from
the other to the one. -/
def Apart (t u : Timestamp) (ticks : Int) : Prop := t.later? ticks.toNat = u.later? (-ticks).toNat

/-- **The ticks between two times** are the difference of their counts. -/
theorem apart_iff (ht : t.second < 60) (hu : u.second < 60) {ticks : Int} :
    t.Apart u ticks ↔ u.epochSeconds - t.epochSeconds = ticks := by
  rw [Apart]
  -- one of the two clocks stands still
  by_cases hticks : 0 ≤ ticks
  · have hnone : (-ticks).toNat = 0 := by omega
    rw [hnone, later?_zero, later?_eq_some_iff ht]
    omega
  · have hnone : ticks.toNat = 0 := by omega
    rw [hnone, later?_zero, eq_comm, later?_eq_some_iff hu]
    omega

/-! ## The order of times -/

/-- **Earlier times have smaller counts.** -/
theorem compare_eq_lt_iff (ht : t.second < 60) (hu : u.second < 60) :
    compare t u = .lt ↔ t.epochSeconds < u.epochSeconds := by
  have hminute := t.minute_lt
  have hminute' := u.minute_lt
  have hday := secondOfDay_lt ht
  have hday' := secondOfDay_lt hu
  change (compare t.date u.date).then ((compare t.hour u.hour).then
    ((compare t.minute u.minute).then (compare t.second u.second))) = .lt ↔ _
  simp only [Ordering.then_eq_lt, Nat.compare_eq_lt, Nat.compare_eq_eq, Date.compare_eq_lt_iff,
    Date.compare_eq_eq_iff, ← Date.dayNumber_inj]
  -- days differ by more than the seconds within them
  unfold epochSeconds
  unfold secondOfDay at hday hday' ⊢
  omega

end Timestamp

/-! ## Distances from UTC -/

/-- Two digits of hours and two of minutes are less than 101 hours. -/
theorem hourMinuteSeconds?_le {cs : List Char} {n : Nat} (h : hourMinuteSeconds? cs = some n) :
    n ≤ 362340 := by
  unfold hourMinuteSeconds? at h
  split at h
  · obtain ⟨hours, hhours, hrest⟩ := Option.bind_eq_some_iff.mp h
    obtain ⟨minutes, hminutes, hn⟩ := Option.bind_eq_some_iff.mp hrest
    -- the digits are not bounded by 24 and 60
    have hlt : hours < 100 := Numeral.natural?_lt hhours
    have hlt' : minutes < 100 := Numeral.natural?_lt hminutes
    have heq : 3600 * hours + 60 * minutes = n := Option.some.inj hn
    omega
  · cases h

/-- **An advertised distance is less than 101 hours**, to the east or to the west. -/
theorem zoneSeconds_bound (offset : String) :
    -362340 ≤ zoneSeconds offset ∧ zoneSeconds offset ≤ 362340 := by
  have hle : ∀ cs : List Char, (hourMinuteSeconds? cs).getD 0 ≤ 362340 := by
    intro cs
    cases h : hourMinuteSeconds? cs with
    | none => exact Nat.zero_le _
    | some n => exact hourMinuteSeconds?_le h
  unfold zoneSeconds
  split
  · rename_i cs _ _
    have := hle cs
    omega
  · rename_i cs _ _
    have := hle cs
    omega
  · rename_i cs _ _ _ _
    have := hle cs
    omega
  · omega

theorem clockShift_bound (offset : String) (daylightSaving : Bool) :
    -362340 ≤ clockShift offset daylightSaving ∧ clockShift offset daylightSaving ≤ 365940 := by
  have hzone := zoneSeconds_bound offset
  unfold clockShift
  cases daylightSaving
  · simp only [Bool.false_eq_true, if_false]
    omega
  · simp only [if_true]
    omega

/-! ## Counts given as text -/

namespace Timestamp

variable {t : Timestamp} {s : Int64} {text offset : String} {daylightSaving : Bool}

/-- Holds if the text, without the blanks around it, is a numeral of the number. -/
def Tells (text : String) (s : Int64) : Prop := Numeral.int64? (Text.trim text.toList) = some s

instance (text : String) (s : Int64) : Decidable (Tells text s) :=
  inferInstanceAs (Decidable (_ = _))

theorem tells_text (s : Int64) : Tells (Numeral.text s.toInt) s := by
  have htrim : Text.trim (Numeral.ofInteger s.toInt) = Numeral.ofInteger s.toInt :=
    Text.trim_eq_self fun c hc => Numeral.isBlank_of_mem_ofInteger hc
  rw [Tells, Numeral.text, String.toList_ofList, htrim, Numeral.int64?_ofInteger]

/-- A number is told by its text with blanks around it. -/
theorem tells_blanks_text (s : Int64) {before after : String}
    (hbefore : ∀ c ∈ before.toList, Text.isBlank c = true)
    (hafter : ∀ c ∈ after.toList, Text.isBlank c = true) :
    Tells (before ++ Numeral.text s.toInt ++ after) s := by
  have hblank : ∀ c ∈ Numeral.ofInteger s.toInt, Text.isBlank c = false := fun c hc =>
    Numeral.isBlank_of_mem_ofInteger hc
  have htrim : Text.trim (before.toList ++ (Numeral.ofInteger s.toInt ++ after.toList)) =
      Numeral.ofInteger s.toInt :=
    Text.trim_blanks_around (Numeral.ofInteger_ne_nil _)
      (fun c hc => hblank c (List.mem_of_mem_head? hc))
      (fun c hc => hblank c (List.mem_of_mem_getLast? hc)) hbefore hafter
  rw [Tells, String.toList_append, String.toList_append, Numeral.text, String.toList_ofList,
    List.append_assoc, htrim, Numeral.int64?_ofInteger]

/-- A count in range fits in 64 bits, with room for any move. -/
theorem exists_int64_of_inRange {n : Int} (h : InRange n) {shift : Int}
    (hshift : -362340 ≤ shift ∧ shift ≤ 365940) : ∃ m : Int64, m.toInt = n + shift := by
  have hrange := inRange_iff.mp h
  have hmin : Int64.minValue.toInt ≤ n + shift := by
    have : Int64.minValue.toInt = -9223372036854775808 := by decide
    omega
  have hmax : n + shift ≤ Int64.maxValue.toInt := by
    have : Int64.maxValue.toInt = 9223372036854775807 := by decide
    omega
  exact ⟨Int64.ofInt (n + shift), Int64.toInt_ofInt_of_le hmin (Int.lt_add_one_of_le hmax)⟩

theorem ofEpoch?_eq_some_iff {seconds shift : Int} : ofEpoch? seconds shift = some t ↔
    InRange seconds ∧ t.second < 60 ∧ t.epochSeconds = seconds + shift := by
  rw [ofEpoch?, Option.bind_eq_some_iff, ofEpochSeconds?_eq_some_iff,
    ← isSome_ofEpochSeconds? (s := seconds), Option.isSome_iff_exists, exists_and_right]

theorem ofEpoch_eq_getD (h : Tells text s) : ofEpoch text offset daylightSaving =
    (ofEpoch? s.toInt (clockShift offset daylightSaving)).getD unset := by
  rw [ofEpoch, h, Option.bind_some]

/-- **The time of a count** that is in range, before and after the move, has the moved count. -/
theorem ofEpoch_eq_iff (h : Tells text s) (hs : InRange s.toInt)
    (hmoved : InRange (s.toInt + clockShift offset daylightSaving)) :
    ofEpoch text offset daylightSaving = t ↔
      t.second < 60 ∧ t.epochSeconds = s.toInt + clockShift offset daylightSaving := by
  obtain ⟨u, hu, hcount⟩ := exists_epochSeconds_eq_iff.mpr hmoved
  rw [ofEpoch_eq_getD h, ofEpoch?_eq_some_iff.mpr ⟨hs, hu, hcount⟩, Option.getD_some]
  constructor
  · rintro rfl
    exact ⟨hu, hcount⟩
  · rintro ⟨ht, hcount'⟩
    exact (epochSeconds_inj hu ht).mp (hcount.trans hcount'.symm)

/-- The move can as well be made beforehand. -/
theorem ofEpoch_eq_ofEpoch_moved (h : Tells text s) (hs : InRange s.toInt)
    (hmoved : InRange (s.toInt + clockShift offset daylightSaving)) :
    ofEpoch text offset daylightSaving =
      ofEpoch (Numeral.text (s.toInt + clockShift offset daylightSaving)) "" false := by
  obtain ⟨m, hm⟩ := exists_int64_of_inRange hs (clockShift_bound offset daylightSaving)
  have hutc : clockShift "" false = 0 := by decide
  -- the other side is the time of the moved count, which is not moved any further
  rw [ofEpoch_eq_iff h hs hmoved, ← hm]
  rw [← hm] at hmoved
  have hcount := (ofEpoch_eq_iff (tells_text m) hmoved (by rwa [hutc, Int.add_zero])).mp rfl
  rwa [hutc, Int.add_zero] at hcount

/-- A larger count has a later time. -/
theorem compare_ofEpoch_eq_lt {text' : String} {s' : Int64} (h : Tells text s) (hs : InRange s.toInt)
    (hmoved : InRange (s.toInt + clockShift offset daylightSaving)) (h' : Tells text' s')
    (hs' : InRange s'.toInt) (hmoved' : InRange (s'.toInt + clockShift offset daylightSaving))
    (hlt : s.toInt < s'.toInt) :
    compare (ofEpoch text offset daylightSaving) (ofEpoch text' offset daylightSaving) = .lt := by
  obtain ⟨hsecond, hcount⟩ := (ofEpoch_eq_iff h hs hmoved).mp rfl
  obtain ⟨hsecond', hcount'⟩ := (ofEpoch_eq_iff h' hs' hmoved').mp rfl
  rw [compare_eq_lt_iff hsecond hsecond', hcount, hcount']
  omega

/-- Any other text has no time. -/
theorem ofEpoch_eq_unset (h : ∀ s, Tells text s → InRange s.toInt →
    ¬InRange (s.toInt + clockShift offset daylightSaving)) :
    ofEpoch text offset daylightSaving = unset := by
  cases htext : Numeral.int64? (Text.trim text.toList) with
  | none => rw [ofEpoch, htext, Option.bind_none, Option.getD_none]
  | some s =>
    rw [ofEpoch_eq_getD htext]
    cases htime : ofEpoch? s.toInt (clockShift offset daylightSaving) with
    | none => rfl
    | some t =>
      -- the count of a time is in range
      obtain ⟨hs, ht, hcount⟩ := ofEpoch?_eq_some_iff.mp htime
      exact absurd (hcount ▸ inRange_epochSeconds ht) (h s htext hs)

/-- **The time of a count given as text**, with blanks around it or without. If the count is in range
before and after the move to the server's clock, the time lies so many ticks from the start of 1970,
which is the time of the moved count in UTC, and larger counts have later times. Any other text has no
time. The distance from UTC fits in 32 bits, and a count in range can be moved within 64 bits. -/
theorem ofEpoch_exact (offset : String) (daylightSaving : Bool) :
    (∀ (s : Int64) {before after : String}, (∀ c ∈ before.toList, Text.isBlank c = true) →
      (∀ c ∈ after.toList, Text.isBlank c = true) →
        Tells (before ++ Numeral.text s.toInt ++ after) s) ∧
    (∀ text s, Tells text s → InRange s.toInt →
      InRange (s.toInt + clockShift offset daylightSaving) →
        (∀ t, ofEpoch text offset daylightSaving = t ↔
          t.second < 60 ∧ epoch.Apart t (s.toInt + clockShift offset daylightSaving)) ∧
        ofEpoch text offset daylightSaving =
          ofEpoch (Numeral.text (s.toInt + clockShift offset daylightSaving)) "" false ∧
        ∀ text' s', Tells text' s' → InRange s'.toInt →
          InRange (s'.toInt + clockShift offset daylightSaving) → s.toInt < s'.toInt →
            compare (ofEpoch text offset daylightSaving) (ofEpoch text' offset daylightSaving) =
              .lt) ∧
    (∀ text, (∀ s, Tells text s → InRange s.toInt →
      ¬InRange (s.toInt + clockShift offset daylightSaving)) →
        ofEpoch text offset daylightSaving = unset) ∧
    (Numeral.fit32? (zoneSeconds offset)).isSome = true ∧
    ∀ n, InRange n → (Numeral.fit64? (n + clockShift offset daylightSaving)).isSome = true := by
  refine ⟨fun s _ _ => tells_blanks_text s, fun text s htext hs hmoved => ⟨fun t => ?_, ?_, ?_⟩,
    fun text => ofEpoch_eq_unset, ?_, fun n hn => ?_⟩
  · rw [ofEpoch_eq_iff htext hs hmoved]
    refine and_congr_right fun ht => ?_
    rw [apart_iff (by decide) ht, epochSeconds_epoch, Int.sub_zero]
  · exact ofEpoch_eq_ofEpoch_moved htext hs hmoved
  · intro text' s' htext' hs' hmoved' hlt
    exact compare_ofEpoch_eq_lt htext hs hmoved htext' hs' hmoved' hlt
  · have hmin : Int32.minValue.toInt ≤ -362340 := by decide
    have hmax : 362340 ≤ Int32.maxValue.toInt := by decide
    have hbound := zoneSeconds_bound offset
    rw [Numeral.fit32?, if_pos ⟨by omega, by omega⟩]
    rfl
  · obtain ⟨m, hm⟩ := exists_int64_of_inRange hn (clockShift_bound offset daylightSaving)
    rw [← hm, Numeral.fit64?_toInt]
    rfl

/-- At both ends of the range and on either side of the start of year 1: the last second, behind a wide
blank and moved to the west, has a time; moved by a minute to the east it has none; the first second
moved to the west has none; and one second makes the difference between year 0 and year 1. -/
theorem ofEpoch_at_range_ends :
    (∀ t, ofEpoch "\u20038210266876799 " "-2359 X" false = t ↔
      t.second < 60 ∧ epoch.Apart t 8210266790459) ∧
    ofEpoch "8210266876799" "+0001" false = unset ∧
    ofEpoch "-8334601228800" "-0800" true = unset ∧
    compare (ofEpoch "-62135596801" "" false) (ofEpoch "-62135596800" "" false) = .lt := by
  have hwide : Tells ("\u2003" ++ Numeral.text (Int64.toInt 8210266876799) ++ " ") 8210266876799 :=
    (ofEpoch_exact "-2359 X" false).1 _ (List.all_eq_true.mp (by decide))
      (List.all_eq_true.mp (by decide))
  have hnumeral : "\u2003" ++ Numeral.text (Int64.toInt 8210266876799) ++ " " =
      "\u20038210266876799 " := by decide
  have hwest : Int64.toInt 8210266876799 + clockShift "-2359 X" false = 8210266790459 := by decide
  rw [hnumeral] at hwide
  refine ⟨?_, ?_, ?_, ?_⟩
  · have htime := ((ofEpoch_exact "-2359 X" false).2.1 _ _ hwide (by decide) (by decide)).1
    rwa [hwest] at htime
  · have hlast : Tells "8210266876799" 8210266876799 := by decide
    refine (ofEpoch_exact "+0001" false).2.2.1 _ fun s hs _ => ?_
    rw [Option.some.inj (hs.symm.trans hlast)]
    decide
  · have hfirst : Tells "-8334601228800" (-8334601228800) := by decide
    refine (ofEpoch_exact "-0800" true).2.2.1 _ fun s hs _ => ?_
    rw [Option.some.inj (hs.symm.trans hfirst)]
    decide
  · have hzero : Tells "-62135596801" (-62135596801) := by decide
    have hone : Tells "-62135596800" (-62135596800) := by decide
    exact ((ofEpoch_exact "" false).2.1 _ _ hzero (by decide) (by decide)).2.2 _ _ hone (by decide)
      (by decide) (by decide)

end Timestamp

end DepotClient
