import DepotClient.Server.Info

/-! # What an uptime of three numbers is

An uptime of hours, minutes and seconds passes two bounds: each number is read on its own, as zero if
it does not fit in 32 bits, and the sum of them is built up step by step, where a step that does not
fit makes the whole uptime zero. The steps only grow, so the second bound is one on the sum
(`ServerInfo.foldlM_addSeconds?`). The first one is not: a number that is too large is left out, and
the others are still counted.

* **`ServerInfo.addSeconds?_eq_fit32?`** — one step is exact if it fits;
* **`ServerInfo.foldlM_addSeconds?`** — so are all steps, if the sum fits;
* **`ServerInfo.uptimeOf_digits`** — the uptime of three runs of digits;
* **`ServerInfo.uptime_eq_total_iff`** — it is the sum of the three numbers, or zero if that does not
  fit, unless a number alone does not fit and the others add up to something that does. -/

namespace DepotClient

/-! ## Numbers that fit in 32 bits -/

/-- Holds of the numbers that fit in 32 bits. -/
def Fits (n : Int) : Prop := Int32.minValue.toInt ≤ n ∧ n ≤ Int32.maxValue.toInt

instance (n : Int) : Decidable (Fits n) := by
  unfold Fits; infer_instance

/-- A number as a 32-bit one, zero if it does not fit. -/
def fitted (n : Int) : Int32 := (Numeral.fit32? n).getD 0

variable {n : Int}

theorem exists_fit32?_of_fits (h : Fits n) : ∃ m : Int32, Numeral.fit32? n = some m ∧ m.toInt = n :=
  ⟨Int32.ofInt n, if_pos h, Numeral.fit32?_eq_some_iff.mp (if_pos h)⟩

theorem fit32?_of_not_fits (h : ¬Fits n) : Numeral.fit32? n = none := if_neg h

theorem fits_toInt (m : Int32) : Fits m.toInt := ⟨m.minValue_le_toInt, m.toInt_le⟩

@[simp] theorem fitted_toInt (m : Int32) : fitted m.toInt = m := by
  rw [fitted, Numeral.fit32?_toInt, Option.getD_some]

theorem toInt_fitted (h : Fits n) : (fitted n).toInt = n := by
  obtain ⟨m, hm, hn⟩ := exists_fit32?_of_fits h
  rw [fitted, hm, Option.getD_some, hn]

theorem fitted_of_not_fits (h : ¬Fits n) : fitted n = 0 := by
  rw [fitted, fit32?_of_not_fits h, Option.getD_none]

/-- Zero stands for zero and for the numbers that do not fit. -/
theorem fitted_eq_zero_iff : fitted n = 0 ↔ n = 0 ∨ ¬Fits n := by
  constructor
  · intro hzero
    by_cases h : Fits n
    · left
      rw [← toInt_fitted h, hzero, Int32.toInt_zero]
    · exact Or.inr h
  · rintro (rfl | h)
    · decide
    · exact fitted_of_not_fits h

/-- A number that lies between two that fit does so too. -/
theorem Fits.of_le {k : Int} (h : Fits n) (hk : 0 ≤ k) (hle : k ≤ n) : Fits k := by
  have hzero : Int32.minValue.toInt ≤ 0 := by decide
  exact ⟨by omega, Int.le_trans hle h.2⟩

/-- If a span fits, so does each of its numbers, since none exceeds it. -/
theorem fits_of_fits_span {hours minutes seconds : Nat}
    (h : Fits (3600 * hours + 60 * minutes + seconds : Nat)) :
    Fits hours ∧ Fits minutes ∧ Fits seconds :=
  ⟨h.of_le (by omega) (by omega), h.of_le (by omega) (by omega), h.of_le (by omega) (by omega)⟩

/-- The number if it fits in 32 bits, and else zero. -/
def counted (n : Nat) : Nat := if Fits n then n else 0

theorem counted_of_fits {n : Nat} (h : Fits n) : counted n = n := if_pos h

theorem toInt_fitted_natCast (n : Nat) : (fitted n).toInt = counted n := by
  by_cases h : Fits n
  · rw [toInt_fitted h, counted_of_fits h]
  · rw [fitted_of_not_fits h, counted, if_neg h]
    rfl

/-! ## Counting in sixties -/

/-- A number, and others each of which counts sixty times less than the one before. -/
def inSixties (n : Int) : List Int → Int
  | [] => n
  | k :: ks => inSixties (60 * n + k) ks

/-- No number on the way is larger than the last one. -/
theorem le_inSixties {ks : List Int} (hn : 0 ≤ n) (hks : ∀ k ∈ ks, 0 ≤ k) : n ≤ inSixties n ks := by
  induction ks generalizing n with
  | nil => exact Int.le_refl n
  | cons k ks ih =>
    obtain ⟨hk, hks⟩ := List.forall_mem_cons.mp hks
    have hnext : 60 * n + k ≤ inSixties (60 * n + k) ks := ih (by omega) hks
    rw [inSixties]
    omega

namespace ServerInfo

/-- The number of a part of an uptime. -/
def partSeconds (part : List Char) : Int := (intValue (String.ofList part)).toInt

/-- **One step in the reading of an uptime**: sixty times the seconds so far and those of the next
part, if they fit in 32 bits. The product alone fits if they do. -/
theorem addSeconds?_eq_fit32? {seconds : Int32} {part : List Char} (hseconds : 0 ≤ seconds.toInt)
    (hpart : 0 ≤ partSeconds part) :
    addSeconds? seconds part = Numeral.fit32? (60 * seconds.toInt + partSeconds part) := by
  have hproduct : seconds.toInt * 60 = 60 * seconds.toInt := Int.mul_comm _ _
  rw [addSeconds?, hproduct]
  by_cases h : Fits (60 * seconds.toInt)
  · obtain ⟨m, hm, hn⟩ := exists_fit32?_of_fits h
    rw [hm, Option.bind_some, hn]
    rfl
  · -- a product that does not fit is too large, and the sum is larger still
    have hsum : ¬Fits (60 * seconds.toInt + partSeconds part) := fun hsum =>
      h (hsum.of_le (by omega) (by omega))
    rw [fit32?_of_not_fits h, fit32?_of_not_fits hsum, Option.bind_none]

/-- **All steps in the reading of an uptime** give the sum, if it fits in 32 bits. By induction on the
parts: behind a step that does not fit, the sum does not fit either. -/
theorem foldlM_addSeconds? {seconds : Int32} {parts : List (List Char)} (hseconds : 0 ≤ seconds.toInt)
    (hparts : ∀ part ∈ parts, 0 ≤ partSeconds part) :
    parts.foldlM addSeconds? seconds =
      Numeral.fit32? (inSixties seconds.toInt (parts.map partSeconds)) := by
  induction parts generalizing seconds with
  | nil => exact (Numeral.fit32?_toInt seconds).symm
  | cons part parts ih =>
    obtain ⟨hpart, hparts⟩ := List.forall_mem_cons.mp hparts
    rw [List.foldlM_cons, addSeconds?_eq_fit32? hseconds hpart, List.map_cons, inSixties]
    by_cases h : Fits (60 * seconds.toInt + partSeconds part)
    · obtain ⟨next, hnext, hsum⟩ := exists_fit32?_of_fits h
      rw [hnext, ← hsum]
      exact ih (by omega) hparts
    · have hgrow : 60 * seconds.toInt + partSeconds part ≤
          inSixties (60 * seconds.toInt + partSeconds part) (parts.map partSeconds) :=
        le_inSixties (by omega) (List.forall_mem_map.mpr hparts)
      rw [fit32?_of_not_fits h, fit32?_of_not_fits fun hall => h (hall.of_le (by omega) hgrow)]
      rfl

/-! ## Three runs of digits -/

theorem partSeconds_of_natural? {part : List Char} {n : Nat} (h : Numeral.natural? part = some n) :
    partSeconds part = counted n := by
  rw [partSeconds, intValue_of_natural? h, ← fitted, toInt_fitted_natCast]

/-- Runs of digits with colons between them come apart again. -/
theorem cut_digits {h m s : List Char} (hdigits : ∀ part ∈ [h, m, s], ∀ c ∈ part, c.isDigit = true) :
    Text.cut (· == ':') (Text.trim (List.intercalate [':'] [h, m, s])) = [h, m, s] := by
  have hblank : ∀ c ∈ List.intercalate [':'] [h, m, s], Text.isBlank c = false := by
    have hcolon : Text.isBlank ':' = false := by decide
    have hpart : ∀ part ∈ [h, m, s], ∀ c ∈ part, Text.isBlank c = false := fun part hpart c hc =>
      Text.isBlank_of_isDigit (hdigits part hpart c hc)
    simp only [List.forall_mem_cons] at hpart
    obtain ⟨hh, hm, hs, -⟩ := hpart
    simp only [List.intercalate_cons_cons, List.intercalate_singleton, List.forall_mem_append,
      List.forall_mem_singleton]
    exact ⟨⟨hh, hcolon⟩, ⟨hm, hcolon⟩, hs⟩
  have hcolon : ∀ part ∈ [h, m, s], ∀ c ∈ part, (c == ':') = false := by
    intro part hpart c hc
    refine beq_false_of_ne ?_
    rintro rfl
    have hdigit := hdigits part hpart ':' hc
    cases hdigit
  rw [Text.trim_eq_self hblank, Text.cut_intercalate (by decide) (List.cons_ne_nil _ _) hcolon]

/-- **An uptime of three numbers**, each of them zero if it does not fit in 32 bits, is their sum if
that fits, and else zero. -/
theorem uptimeOf_digits {h m s : List Char} {hours minutes seconds : Nat}
    (hhours : Numeral.natural? h = some hours) (hminutes : Numeral.natural? m = some minutes)
    (hseconds : Numeral.natural? s = some seconds) :
    uptimeOf (String.ofList (List.intercalate [':'] [h, m, s])) =
      fitted (3600 * counted hours + 60 * counted minutes + counted seconds : Nat) := by
  have hdigits : ∀ part ∈ [h, m, s], ∀ c ∈ part, c.isDigit = true := by
    simp only [List.forall_mem_cons]
    exact ⟨(Numeral.natural?_eq_some_iff.mp hhours).1.2, (Numeral.natural?_eq_some_iff.mp hminutes).1.2,
      (Numeral.natural?_eq_some_iff.mp hseconds).1.2, List.forall_mem_nil _⟩
  have hnumbers : [h, m, s].map partSeconds =
      [(counted hours : Int), (counted minutes : Int), (counted seconds : Int)] := by
    simp only [List.map_cons, List.map_nil, partSeconds_of_natural? hhours,
      partSeconds_of_natural? hminutes, partSeconds_of_natural? hseconds]
  have hparts : ∀ part ∈ [h, m, s], 0 ≤ partSeconds part := by
    rw [← List.forall_mem_map (P := fun k => 0 ≤ k), hnumbers]
    simp
  have hsum : inSixties (0 : Int32).toInt ([h, m, s].map partSeconds) =
      (3600 * counted hours + 60 * counted minutes + counted seconds : Nat) := by
    rw [hnumbers, Int32.toInt_zero]
    simp only [inSixties]
    omega
  -- each part is a number that is not negative, so the steps are exact
  have hfold : [h, m, s].foldlM addSeconds? 0 =
      Numeral.fit32? (3600 * counted hours + 60 * counted minutes + counted seconds : Nat) := by
    rw [foldlM_addSeconds? (by decide) hparts, hsum]
  rw [uptimeOf, String.toList_ofList, cut_digits hdigits]
  exact congrArg (Option.getD · 0) hfold

end ServerInfo

/-! ## Uptimes in records -/

/-- Holds of the texts of one or more digits. -/
def IsDigits (text : String) : Prop := text ≠ "" ∧ text.toList.all Char.isDigit = true

instance (text : String) : Decidable (IsDigits text) := by
  unfold IsDigits; infer_instance

/-- The number that digits write. -/
def digitsNumber (text : String) : Nat := Nat.ofDigitChars 10 text.toList 0

theorem IsDigits.natural? {text : String} (h : IsDigits text) :
    Numeral.natural? text.toList = some (digitsNumber text) :=
  Numeral.natural?_eq_some_iff.mpr
    ⟨⟨fun hnil => h.1 (String.toList_eq_nil_iff.mp hnil), List.all_eq_true.mp h.2⟩, rfl⟩

/-- The seconds of hours, minutes and seconds in digits. -/
def totalSeconds (h m s : String) : Nat :=
  3600 * digitsNumber h + 60 * digitsNumber m + digitsNumber s

/-- The seconds of those of the three numbers that fit in 32 bits on their own. -/
def countedSeconds (h m s : String) : Nat :=
  3600 * counted (digitsNumber h) + 60 * counted (digitsNumber m) + counted (digitsNumber s)

/-- If each number fits, all of them are counted. -/
theorem countedSeconds_of_fits {h m s : String}
    (hfits : Fits (digitsNumber h) ∧ Fits (digitsNumber m) ∧ Fits (digitsNumber s)) :
    countedSeconds h m s = totalSeconds h m s := by
  rw [countedSeconds, counted_of_fits hfits.1, counted_of_fits hfits.2.1,
    counted_of_fits hfits.2.2, totalSeconds]

namespace ServerInfo

variable {r : Record} {h m s : String}

/-- The uptime in a record is that of its three numbers, each of them zero if it does not fit. -/
theorem uptime_decode (hh : IsDigits h) (hm : IsDigits m) (hs : IsDigits s)
    (hr : r.get? "serverUptime" = some (h ++ ":" ++ m ++ ":" ++ s)) :
    (decode r).uptime = fitted (countedSeconds h m s) := by
  have htext : h ++ ":" ++ m ++ ":" ++ s =
      String.ofList (List.intercalate [':'] [h.toList, m.toList, s.toList]) := by
    rw [← String.toList_inj]
    simp [List.intercalate_cons_cons]
  have huptime : (decode r).uptime = ((r.get? "serverUptime").map uptimeOf).getD 0 := rfl
  rw [huptime, hr, htext, Option.map_some, Option.getD_some]
  exact uptimeOf_digits hh.natural? hm.natural? hs.natural?

/-- **The uptime in a record of three numbers** is the sum of those that fit in 32 bits on their own, or
zero if the sum does not fit. So it is that of all three, or zero if that does not fit, exactly if each
of them fits, or the sum of those that do is zero or does not fit. -/
theorem uptime_eq_total_iff (hh : IsDigits h) (hm : IsDigits m) (hs : IsDigits s)
    (hr : r.get? "serverUptime" = some (h ++ ":" ++ m ++ ":" ++ s)) :
    (decode r).uptime = fitted (countedSeconds h m s) ∧
    ((decode r).uptime = fitted (totalSeconds h m s) ↔
      (Fits (digitsNumber h) ∧ Fits (digitsNumber m) ∧ Fits (digitsNumber s)) ∨
        countedSeconds h m s = 0 ∨ ¬Fits (countedSeconds h m s)) := by
  have huptime := uptime_decode hh hm hs hr
  refine ⟨huptime, ?_⟩
  rw [huptime]
  by_cases hfits : Fits (digitsNumber h) ∧ Fits (digitsNumber m) ∧ Fits (digitsNumber s)
  · rw [countedSeconds_of_fits hfits]
    exact iff_of_true rfl (Or.inl hfits)
  · -- the sum of all three does not fit either, so the uptime would have to be zero
    have htotal : ¬Fits (totalSeconds h m s) := mt fits_of_fits_span hfits
    rw [fitted_of_not_fits htotal, fitted_eq_zero_iff, Int.natCast_eq_zero, or_iff_right hfits]

/-- The longest uptime is told, and of hours that do not fit with nothing beside them, zero. -/
theorem uptime_eq_total_of_longest :
    (decode (Record.ofList [("serverUptime", "596523:14:07")])).uptime =
      fitted (totalSeconds "596523" "14" "07") ∧
    fitted (totalSeconds "596523" "14" "07") = 2147483647 ∧
    (decode (Record.ofList [("serverUptime", "99999999999:0:00")])).uptime =
      fitted (totalSeconds "99999999999" "0" "00") := by
  refine ⟨?_, by decide, ?_⟩
  · exact (uptime_eq_total_iff (by decide) (by decide) (by decide) (by decide)).2.mpr
      (Or.inl (by decide))
  · have h := uptime_eq_total_iff (r := Record.ofList [("serverUptime", "99999999999:0:00")])
      (h := "99999999999") (m := "0") (s := "00") (by decide) (by decide) (by decide) (by decide)
    exact h.2.mpr (Or.inr (Or.inl (by decide)))

/-- Hours that do not fit are left out of an uptime with a minute and a second beside them, while all
three numbers together do not fit. -/
theorem uptime_of_overlong_hours :
    IsDigits "99999999999" ∧ IsDigits "1" ∧
    (decode (Record.ofList [("serverUptime", "99999999999" ++ ":" ++ "1" ++ ":" ++ "1")])).uptime =
      61 ∧
    fitted (totalSeconds "99999999999" "1" "1") = 0 := by
  decide

end ServerInfo

end DepotClient
