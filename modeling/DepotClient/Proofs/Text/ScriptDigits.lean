import Mathlib.Data.List.TakeWhile
import DepotClient.Text.Basic
import DepotClient.Record.Basic
import DepotClient.Proofs.Calendar.Layout

/-! # Numbers and dates in digits of any script

Digits of all scripts count as digits where a number or a date is looked for in free text, but only
ASCII digits are read as one. So a run of digits is a number exactly if all of them are ASCII, and a
date between slashes is one exactly if its three runs are numbers that name a day. The readers are
more generous than that, they skip blanks and take short numbers; nothing of it applies to digits,
since a number that ends before another digit has no sign behind it.

* **`intValue_of_decimal`** — the number of a run of digits;
* **`bind_leadingNumber?`** — a number that is read off the front of its run is the whole run;
* **`Timestamp.parse?_of_decimal`** — the day of a date between slashes. -/

namespace DepotClient

/-! ## Digits of all scripts -/

namespace Text

/-- Beyond the ASCII digits come those of other scripts, far behind the letters of ASCII. -/
theorem isDigit_or_le_of_isDecimalDigit {c : Char} (h : isDecimalDigit c = true) :
    c.isDigit = true ∨ 0x660 ≤ c.toNat := by
  have hblocks : ∀ first ∈ decimalZeros, first = 0x30 ∨ 0x660 ≤ first := by decide
  obtain ⟨first, hfirst, hc⟩ := List.any_eq_true.mp h
  simp only [Bool.and_eq_true, decide_eq_true_eq] at hc
  obtain rfl | hle := hblocks first hfirst
  · exact .inl (Char.isDigit_iff_toNat.mpr ⟨hc.1, Nat.le_of_lt_succ hc.2⟩)
  · exact .inr (Nat.le_trans hle hc.1)

/-- A digit of any script is no blank. -/
theorem isBlank_of_isDecimalDigit {c : Char} (h : isDecimalDigit c = true) : isBlank c = false := by
  have hblocks : ∀ first ∈ decimalZeros, ∀ k < 10, isBlank (Char.ofNat (first + k)) = false := by
    decide +kernel
  obtain ⟨first, hfirst, hc⟩ := List.any_eq_true.mp h
  simp only [Bool.and_eq_true, decide_eq_true_eq] at hc
  have hchar : Char.ofNat (first + (c.toNat - first)) = c := by
    rw [Nat.add_sub_of_le hc.1, Char.ofNat_toNat]
  rw [← hchar]
  exact hblocks first hfirst _ (by omega)

/-- A digit of any script has no case. -/
theorem simpleFold_of_isDecimalDigit {c : Char} (h : isDecimalDigit c = true) : simpleFold c = c := by
  have hs : c ≠ '\u017F' := by rintro rfl; revert h; decide
  have hk : c ≠ '\u212A' := by rintro rfl; revert h; decide
  rw [simpleFold, if_neg hs, if_neg hk]
  refine dif_neg fun hupper => ?_
  have hletter : 65 ≤ c.toNat ∧ c.toNat ≤ 90 := hupper
  obtain hdigit | hle := isDigit_or_le_of_isDecimalDigit h
  · have hle : c.toNat ≤ 57 := (Char.isDigit_iff_toNat.mp hdigit).2
    omega
  · omega

/-- What folds to a character that is no digit is none. -/
theorem isDecimalDigit_of_simpleFold {c : Char} (h : isDecimalDigit (simpleFold c) = false) :
    isDecimalDigit c = false := by
  cases hc : isDecimalDigit c with
  | false => rfl
  | true =>
    rw [simpleFold_of_isDecimalDigit hc, hc] at h
    cases h

end Text

/-- Holds of the texts of digits of any script. -/
def IsDecimal (ds : List Char) : Prop := ∀ c ∈ ds, Text.isDecimalDigit c = true

variable {ds : List Char}

theorem IsDecimal.not_mem (h : IsDecimal ds) {c : Char} (hc : Text.isDecimalDigit c = false) :
    c ∉ ds := by
  intro hmem
  rw [h c hmem] at hc
  cases hc

theorem IsDecimal.reverse (h : IsDecimal ds) : IsDecimal ds.reverse :=
  fun c hc => h c (List.mem_reverse.mp hc)

/-- A digit folds to no other character. -/
theorem IsDecimal.simpleFold_ne (h : IsDecimal ds) {letter : Char}
    (hletter : Text.isDecimalDigit letter = false) : ∀ c ∈ ds, Text.simpleFold c ≠ letter := by
  rintro c hc rfl
  rw [Text.simpleFold_of_isDecimalDigit (h c hc), h c hc] at hletter
  cases hletter

/-! ## Numbers -/

/-- A run of digits has no sign. -/
theorem Numeral.integer?_of_decimal (h : IsDecimal ds) :
    integer? ds = (natural? ds).map Int.ofNat := by
  unfold integer?
  split
  · exact absurd List.mem_cons_self (h.not_mem (by decide))
  · exact absurd List.mem_cons_self (h.not_mem (by decide))
  · rfl

/-- **The number of a run of digits** is zero if a digit is not ASCII or the number does not fit. -/
theorem intValue_of_decimal (h : IsDecimal ds) :
    intValue (String.ofList ds) =
      ((Numeral.natural? ds).bind fun n : Nat => Numeral.fit32? n).getD 0 := by
  have htrim : Text.trim ds = ds :=
    Text.trim_eq_self fun c hc => Text.isBlank_of_isDecimalDigit (h c hc)
  rw [intValue, String.toList_ofList, htrim, Numeral.int32?, Numeral.integer?_of_decimal h]
  cases Numeral.natural? ds <;> rfl

/-- **A number that is read off the front of its run is the whole run**, or else a digit stands
behind it. -/
theorem bind_leadingNumber? {β : Type} (hne : ds ≠ []) (h : IsDecimal ds) (rest : List Char)
    {next : Nat × List Char → Option β}
    (hnext : ∀ n d cs, Text.isDecimalDigit d = true → next (n, d :: cs) = none) :
    (leadingNumber? ds.length (ds ++ rest)).bind next =
      (Numeral.natural? ds).bind fun n => next (n, rest) := by
  cases hnumber : Numeral.natural? ds with
  | some n =>
    obtain ⟨⟨-, hdigits⟩, rfl⟩ := Numeral.natural?_eq_some_iff.mp hnumber
    rw [leadingNumber?_append hne hdigits (Nat.le_refl _) (.inl rfl)]
    rfl
  | none =>
    have hsplit : ds.takeWhile Char.isDigit ++ ds.dropWhile Char.isDigit = ds :=
      List.takeWhile_append_dropWhile
    -- some digit is not ASCII, and the first of these ends the number
    obtain ⟨d, behind, hbehind⟩ : ∃ d behind, ds.dropWhile Char.isDigit = d :: behind := by
      cases hdrop : ds.dropWhile Char.isDigit with
      | cons d behind => exact ⟨d, behind, rfl⟩
      | nil =>
        rw [Numeral.natural?, if_pos ⟨hne, List.all_eq_true.mpr
          (List.dropWhile_eq_nil_iff.mp hdrop)⟩] at hnumber
        cases hnumber
    have hd : Text.isDecimalDigit d = true :=
      h d ((List.dropWhile_suffix _).subset (hbehind ▸ List.mem_cons_self))
    have htext : ds ++ rest = ds.takeWhile Char.isDigit ++ d :: (behind ++ rest) := by
      rw [← List.cons_append, ← List.append_assoc, ← hbehind, hsplit]
    have hdrop : (ds ++ rest).drop (ds.takeWhile Char.isDigit).length = d :: (behind ++ rest) := by
      rw [htext, List.drop_left]
    rw [Option.bind_none, leadingNumber?, List.take_left]
    split
    · rfl
    · rw [hdrop, Option.bind_some]
      exact hnext _ _ _ hd

/-- Before a run of digits there is nothing to trim. -/
theorem trimStart_of_decimal (hne : ds ≠ []) (h : IsDecimal ds) (rest : List Char) :
    Text.trimStart (ds ++ rest) = ds ++ rest := by
  cases ds with
  | nil => exact absurd rfl hne
  | cons d ds =>
    refine Text.trimStart_eq_self ?_
    rintro c ⟨rfl⟩
    exact Text.isBlank_of_isDecimalDigit (h d List.mem_cons_self)

/-- A year without a sign is a number of at most four digits. -/
theorem leadingYear?_of_decimal (hne : ds ≠ []) (h : IsDecimal ds) (rest : List Char) :
    leadingYear? (ds ++ rest) = (leadingNumber? 4 (ds ++ rest)).map (Prod.map Int.ofNat id) := by
  cases ds with
  | nil => exact absurd rfl hne
  | cons d ds =>
    have hd := h d List.mem_cons_self
    rw [List.cons_append]
    unfold leadingYear?
    split
    · rename_i hminus
      rw [(List.cons.inj hminus).1] at hd
      cases hd
    · rename_i hplus
      rw [(List.cons.inj hplus).1] at hd
      cases hd
    · rfl

/-- A month or a day is a number of at most two digits. -/
theorem leadingNumber?_trimStart_of_decimal (hlen : ds.length = 2) (h : IsDecimal ds)
    (rest : List Char) :
    leadingNumber? 2 (Text.trimStart (ds ++ rest)) = leadingNumber? ds.length (ds ++ rest) := by
  have hne : ds ≠ [] := List.ne_nil_of_length_pos (by omega)
  rw [trimStart_of_decimal hne h, hlen]

/-! ## Dates -/

/-- The day that three runs of digits name. -/
def Date.ofDigits? (year month day : List Char) : Option Date :=
  (Numeral.natural? year).bind fun y =>
    (Numeral.natural? month).bind fun m =>
      (Numeral.natural? day).bind fun d => of? y m d

namespace Layout

/-- Reads the parts of a layout up to the end of a text. -/
def readToEnd? (layout : Layout) (p : TimeParts) (cs : List Char) : Option Timestamp :=
  (layout.readParts? p cs).bind fun last => if last.2 = [] then last.1.timestamp? else none

theorem readToEnd?_cons (item : LayoutItem) (layout : Layout) (p : TimeParts) (cs : List Char) :
    readToEnd? (item :: layout) p cs =
      (item.read? p cs).bind fun next => layout.readToEnd? next.1 next.2 :=
  Option.bind_assoc _ _ _

/-- A sign is read if it is there. -/
theorem readToEnd?_sign (c : Char) (layout : Layout) (p : TimeParts) (d : Char) (cs : List Char) :
    readToEnd? (.sign c :: layout) p (d :: cs) = if d = c then layout.readToEnd? p cs else none := by
  rw [readToEnd?_cons, LayoutItem.read?]
  split <;> rfl

/-- A layout that does not go on with a number does not go on at a digit. -/
def StopsAtDigit (layout : Layout) : Prop :=
  ∀ p d cs, Text.isDecimalDigit d = true → layout.readToEnd? p (d :: cs) = none

theorem stopsAtDigit_nil : StopsAtDigit [] := by
  intro p d cs _
  rfl

theorem stopsAtDigit_sign {c : Char} (hc : Text.isDecimalDigit c = false) (layout : Layout) :
    StopsAtDigit (.sign c :: layout) := by
  intro p d cs hd
  rw [readToEnd?_sign, if_neg]
  rintro rfl
  rw [hc] at hd
  cases hd

/-- **A run of digits of the right length is read as its number**, or not at all. -/
theorem readToEnd?_of_decimal {item : LayoutItem} {layout : Layout} {p : TimeParts}
    (set : Nat → TimeParts) (hne : ds ≠ []) (h : IsDecimal ds) (hlayout : StopsAtDigit layout)
    (rest : List Char)
    (hitem : item.read? p (ds ++ rest) =
      (leadingNumber? ds.length (ds ++ rest)).map (Prod.map set id)) :
    readToEnd? (item :: layout) p (ds ++ rest) =
      (Numeral.natural? ds).bind fun n => layout.readToEnd? (set n) rest := by
  rw [readToEnd?_cons, hitem, Option.bind_map]
  exact bind_leadingNumber? hne h rest fun n d cs hd => hlayout (set n) d cs hd

variable {year month day : List Char}

/-- **A date between slashes** is read as the day that its three runs of digits name. Part by part,
from the last one to the first. -/
theorem read?_ymd_of_decimal (hyear : IsDecimal year) (hmonth : IsDecimal month)
    (hday : IsDecimal day) (hyearlen : year.length = 4) (hmonthlen : month.length = 2)
    (hdaylen : day.length = 2) :
    (ymd '/').read? (year ++ '/' :: (month ++ '/' :: day)) =
      (Date.ofDigits? year month day).map .midnight := by
  have hslash : Text.isDecimalDigit '/' = false := by decide
  have hyearne : year ≠ [] := List.ne_nil_of_length_pos (by omega)
  have hmonthne : month ≠ [] := List.ne_nil_of_length_pos (by omega)
  have hdayne : day ≠ [] := List.ne_nil_of_length_pos (by omega)
  -- the text ends behind the day, and the time of day is that of its start
  have hend : ∀ y m d : Nat, readToEnd? [] { year := y, month := m, day := d } [] =
      (Date.of? y m d).map .midnight := by
    intro y m d
    have htime : readToEnd? [] { year := y, month := m, day := d } [] = Timestamp.of? y m d 0 0 0 :=
      rfl
    rw [htime, Timestamp.of?]
    cases Date.of? y m d <;> rfl
  have hdays : ∀ y m : Nat, readToEnd? [.day] { year := y, month := m } (day ++ []) =
      (Numeral.natural? day).bind fun d => (Date.of? y m d).map .midnight := by
    intro y m
    rw [readToEnd?_of_decimal (fun d => { year := y, month := m, day := d }) hdayne hday
      stopsAtDigit_nil []
      (by rw [LayoutItem.read?, leadingNumber?_trimStart_of_decimal hdaylen hday])]
    exact congrArg _ (funext fun d => hend y m d)
  -- a month or a year that ends too early leaves a digit where a slash must stand
  have hmonths : ∀ y : Nat, readToEnd? [.month, .sign '/', .day] { year := y }
      (month ++ '/' :: (day ++ [])) =
        (Numeral.natural? month).bind fun m =>
          (Numeral.natural? day).bind fun d => (Date.of? y m d).map .midnight := by
    intro y
    rw [readToEnd?_of_decimal (fun m => { year := y, month := m }) hmonthne hmonth
      (stopsAtDigit_sign hslash _) _
      (by rw [LayoutItem.read?, leadingNumber?_trimStart_of_decimal hmonthlen hmonth])]
    refine congrArg _ (funext fun m => ?_)
    rw [readToEnd?_sign, if_pos rfl, hdays]
  have hyears : readToEnd? (ymd '/') {} (year ++ '/' :: (month ++ '/' :: (day ++ []))) =
      (Numeral.natural? year).bind fun y =>
        (Numeral.natural? month).bind fun m =>
          (Numeral.natural? day).bind fun d => (Date.of? y m d).map .midnight := by
    rw [ymd, readToEnd?_of_decimal (fun y => { year := y }) hyearne hyear
      (stopsAtDigit_sign hslash _) _
      (by rw [LayoutItem.read?, trimStart_of_decimal hyearne hyear,
        leadingYear?_of_decimal hyearne hyear, hyearlen, Option.map_map]; rfl)]
    refine congrArg _ (funext fun y => ?_)
    rw [readToEnd?_sign, if_pos rfl, hmonths]
  rw [List.append_nil] at hyears
  refine hyears.trans ?_
  simp only [Date.ofDigits?, Option.map_bind, Function.comp_def]

end Layout

/-! ## Dates among other texts -/

/-- **A text without a colon or a dash is read as a date between slashes**, or not at all. The other
layouts need one of the two signs. -/
theorem Timestamp.parse?_eq_ymd {s : String} (hcolon : ':' ∉ Text.trim s.toList)
    (hdash : '-' ∉ Text.trim s.toList) :
    parse? s = (Layout.ymd '/').read? (Text.trim s.toList) := by
  have hdashed : (Layout.ymd '-').read? (Text.trim s.toList) = none := by
    have hsign : LayoutItem.sign '-' ∈ Layout.ymd '-' := by decide
    cases hread : (Layout.ymd '-').read? (Text.trim s.toList) with
    | none => rfl
    | some t => exact absurd (Layout.mem_of_read? hsign hread) hdash
  rw [parse?, List.findSome?_append, Layout.findSome?_dateTimes_eq_none hcolon, Option.none_or,
    Layout.dates, List.findSome?_cons, List.findSome?_cons, hdashed]
  cases (Layout.ymd '/').read? (Text.trim s.toList) <;> rfl

/-- **The day of a date between slashes** in digits of any script. -/
theorem Timestamp.parse?_of_decimal {year month day : List Char} (hyear : IsDecimal year)
    (hmonth : IsDecimal month) (hday : IsDecimal day) (hyearlen : year.length = 4)
    (hmonthlen : month.length = 2) (hdaylen : day.length = 2) :
    parse? (String.ofList (year ++ '/' :: (month ++ '/' :: day))) =
      (Date.ofDigits? year month day).map .midnight := by
  -- a date holds digits and slashes, and neither is a blank, a colon or a dash
  have hmem : ∀ c ∈ year ++ '/' :: (month ++ '/' :: day), Text.isDecimalDigit c = true ∨ c = '/' := by
    intro c hc
    simp only [List.mem_append, List.mem_cons] at hc
    obtain hc | rfl | hc | rfl | hc := hc
    · exact .inl (hyear c hc)
    · exact .inr rfl
    · exact .inl (hmonth c hc)
    · exact .inr rfl
    · exact .inl (hday c hc)
  have htrim : Text.trim (year ++ '/' :: (month ++ '/' :: day)) =
      year ++ '/' :: (month ++ '/' :: day) := by
    refine Text.trim_eq_self fun c hc => ?_
    obtain hdigit | rfl := hmem c hc
    · exact Text.isBlank_of_isDecimalDigit hdigit
    · decide
  rw [Timestamp.parse?_eq_ymd, String.toList_ofList, htrim]
  · exact Layout.read?_ymd_of_decimal hyear hmonth hday hyearlen hmonthlen hdaylen
  · rw [String.toList_ofList, htrim]
    intro hc
    exact absurd (hmem ':' hc) (by decide)
  · rw [String.toList_ofList, htrim]
    intro hc
    exact absurd (hmem '-' hc) (by decide)

end DepotClient
