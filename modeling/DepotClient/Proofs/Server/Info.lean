import DepotClient.Proofs.Calendar.Layout
import DepotClient.Proofs.Record.Family
import DepotClient.Proofs.Server.Uptime

/-! # A server's description of itself is read back

A description is one record, and three of its values are texts with a form of their own:

* the version, four parts with slashes between them and a date in brackets;
* the uptime, hours, minutes and seconds with colons between them, which may not exceed 32 bits;
* the time on the clock, which is two words, with the words of the offset behind them.

`WrittenInfo` is a description with all that its written form leaves open: the blanks in front of
each word of the offset, and the hours, minutes and seconds that make up the uptime.

* **`Version.parse_text`** — a version is read back from its text;
* **`ServerInfo.uptimeOf_text`** — so is an uptime, if it fits in 32 bits;
* **`ServerInfo.words_dateText`** — the time and the offset come apart again;
* **`WrittenInfo.decode_ofList`** — so the whole description is read back from its record. -/

namespace DepotClient

/-! ## Versions -/

namespace Version

/-- Holds of a text that can be one of the parts of a version. It may be empty. -/
def IsPart (text : String) : Prop :=
  '/' ∉ text.toList ∧ '(' ∉ text.toList ∧ (∀ c ∈ text.toList.head?, Text.isBlank c = false) ∧
    ∀ c ∈ text.toList.getLast?, Text.isBlank c = false

instance (text : String) : Decidable (IsPart text) :=
  -- only one character has to be looked at on either side, if there is one
  have : ∀ o : Option Char, Decidable (∀ c ∈ o, Text.isBlank c = false) := fun _ =>
    Option.decidableForallMem _
  inferInstanceAs (Decidable (_ ∧ _ ∧ _ ∧ _))

/-- The four parts of a version, in order. -/
def parts (v : Version) : List String := [v.product, v.platform, v.major, v.minor]

/-- The text of a version: its parts with slashes between them, and its date in brackets. -/
def text (v : Version) : String :=
  String.intercalate "/" v.parts ++ " (" ++ v.date.date.text ++ ")"

/-- Holds of the versions that can be written. -/
structure Writable (v : Version) : Prop where
  /-- The parts can be told apart. -/
  isPart : ∀ part ∈ v.parts, IsPart part
  /-- The version shows its day alone. -/
  date_eq : v.date = .midnight v.date.date

variable {v : Version}

/-- The parts of a version with slashes between them. -/
def partsText (v : Version) : List Char := List.intercalate ['/'] (v.parts.map String.toList)

theorem toList_text (v : Version) :
    v.text.toList = v.partsText ++ [' '] ++ '(' :: (v.date.date.text.toList ++ [')']) := by
  simp [text, partsText, String.toList_intercalate]

theorem partsText_eq (v : Version) :
    v.partsText = v.product.toList ++ '/' :: (v.platform.toList ++ '/' :: (v.major.toList ++
      '/' :: v.minor.toList)) := by
  simp [partsText, parts, List.intercalate_cons_cons]

/-- No bracket stands in front of the date. -/
theorem Writable.ne_bracket (h : v.Writable) : ∀ c ∈ v.partsText ++ [' '], c ≠ '(' := by
  obtain ⟨hproduct, hplatform, hmajor, hminor, -⟩ := by
    simpa only [parts, List.forall_mem_cons] using h.isPart
  rintro c hc rfl
  rw [partsText_eq] at hc
  simp [hproduct.2.1, hplatform.2.1, hmajor.2.1, hminor.2.1] at hc

/-- The blank in front of the brackets is dropped, and no other. -/
theorem Writable.trim_partsText (h : v.Writable) : Text.trim (v.partsText ++ [' ']) = v.partsText := by
  obtain ⟨hproduct, -, -, hminor, -⟩ := by
    simpa only [parts, List.forall_mem_cons] using h.isPart
  have hslash : Text.isBlank '/' = false := by decide
  have hstart : ∀ c ∈ v.partsText.head?, Text.isBlank c = false := by
    rw [partsText_eq]
    exact Text.isBlank_head?_append_cons hslash hproduct.2.2.1 _
  have hend : ∀ c ∈ v.partsText.getLast?, Text.isBlank c = false := by
    rw [partsText_eq]
    exact Text.isBlank_getLast?_append_cons hslash (Text.isBlank_getLast?_append_cons hslash
      (Text.isBlank_getLast?_append_cons hslash hminor.2.2.2 _) _) _
  have hne : v.partsText ≠ [] := by
    rw [partsText_eq]
    simp
  have hblank : Text.isBlank ' ' = true := by decide
  exact Text.trim_append_blanks hne hstart hend (List.forall_mem_singleton.mpr hblank)

/-- The parts come apart at the slashes. -/
theorem Writable.cut_partsText (h : v.Writable) :
    (Text.cut (· == '/') v.partsText).map (fun part => String.ofList (Text.trim part)) = v.parts := by
  have hslash : ∀ part ∈ v.parts.map String.toList, ∀ c ∈ part, (c == '/') = false := by
    intro part hpart c hc
    obtain ⟨text, htext, rfl⟩ := List.mem_map.mp hpart
    exact beq_false_of_ne fun heq => (h.isPart text htext).1 (heq ▸ hc)
  rw [partsText, Text.cut_intercalate (by decide) (by simp [parts]) hslash, List.map_map]
  calc v.parts.map ((fun part => String.ofList (Text.trim part)) ∘ String.toList)
      = v.parts.map id := List.map_congr_left fun part hpart => by
        have hends := (h.isPart part hpart).2.2
        rw [Function.comp_apply, Text.trim_eq_self_of_ends hends.1 hends.2, String.ofList_toList, id]
    _ = v.parts := List.map_id v.parts

/-- Brackets around a text without any are taken off. -/
theorem stripBrackets_bracketed {cs : List Char} (h : ∀ c ∈ cs, isBracket c = false) :
    stripBrackets ('(' :: (cs ++ [')'])) = cs := by
  have hstop : ∀ ds : List Char, (∀ c ∈ ds, isBracket c = false) → ds.dropWhile isBracket = ds := by
    intro ds hds
    cases ds with
    | nil => rfl
    | cons d ds => rw [List.dropWhile_cons, hds d List.mem_cons_self]; rfl
  cases cs with
  | nil => decide
  | cons c cs =>
    have hopen : isBracket '(' = true := by decide
    have hclose : isBracket ')' = true := by decide
    have hfirst : isBracket c = false := h c List.mem_cons_self
    have hfront : ('(' :: (c :: cs ++ [')'])).dropWhile isBracket = c :: cs ++ [')'] := by
      rw [List.dropWhile_cons, if_pos hopen, List.cons_append, List.dropWhile_cons, hfirst]
      rfl
    have hback : (')' :: (c :: cs).reverse).dropWhile isBracket = (c :: cs).reverse := by
      rw [List.dropWhile_cons, if_pos hclose]
      exact hstop _ fun d hd => h d (List.mem_reverse.mp hd)
    rw [stripBrackets, hfront, List.reverse_append, List.reverse_singleton, List.singleton_append,
      hback, List.reverse_reverse]

/-- No bracket stands in a date. -/
theorem isBracket_of_mem_dateText (d : Date) : ∀ c ∈ d.text.toList, isBracket c = false := by
  intro c hc
  rw [Date.text, String.toList_ofList] at hc
  have hblank : Text.isBlank c = false := Layout.isBlank_of_mem_write (by decide) hc
  -- another sign in the text would be one of the layout
  have hne : ∀ b, b.isDigit = false → b ∉ ['+', '-', ' '] →
      LayoutItem.sign b ∉ Layout.ymd '/' → c ≠ b := by
    rintro b hdigit hplain hnot rfl
    exact hnot (Layout.sign_mem_of_mem_write hc hdigit hplain)
  have hopen : c ≠ '(' := hne '(' (by decide) (by decide) (by decide)
  have hclose : c ≠ ')' := hne ')' (by decide) (by decide) (by decide)
  simp [isBracket, hblank, hopen, hclose]

/-- **A version is read back from its text.** -/
theorem parse_text (h : v.Writable) : parse v.text = v := by
  have hfront : v.text.toList.takeWhile (· ≠ '(') = v.partsText ++ [' '] := by
    rw [toList_text, List.takeWhile_append_of_pos (by simpa using h.ne_bracket)]
    simp
  have hback : v.text.toList.dropWhile (· ≠ '(') = '(' :: (v.date.date.text.toList ++ [')']) := by
    rw [toList_text, List.dropWhile_append_of_pos (by simpa using h.ne_bracket)]
    simp
  simp only [parse, hfront, hback, h.trim_partsText, h.cut_partsText,
    stripBrackets_bracketed (isBracket_of_mem_dateText _), String.ofList_toList,
    Timestamp.parse_dateText, ← h.date_eq]
  rfl

end Version

/-! ## Uptimes -/

/-- A span of hours, minutes and seconds, each with the width up to which zeros stand in front of
its number. There may be sixty minutes and more beside the hours, and sixty seconds and more. -/
structure Clock where
  /-- The hours. -/
  hours : Nat
  /-- The minutes beside the hours. -/
  minutes : Nat
  /-- The seconds beside the minutes. -/
  seconds : Nat
  /-- The width of the hours. -/
  hoursWidth : Nat := 2
  /-- The width of the minutes. -/
  minutesWidth : Nat := 2
  /-- The width of the seconds. -/
  secondsWidth : Nat := 2

namespace Clock

/-- All the seconds of a span. -/
def total (c : Clock) : Nat := 3600 * c.hours + 60 * c.minutes + c.seconds

/-- The three numerals of a span. -/
def numerals (c : Clock) : List (List Char) :=
  [Numeral.padded c.hoursWidth c.hours, Numeral.padded c.minutesWidth c.minutes,
    Numeral.padded c.secondsWidth c.seconds]

/-- The text of a span, with colons between its numerals. -/
def text (c : Clock) : String := String.ofList (List.intercalate [':'] c.numerals)

/-- Any number of seconds in hours, minutes and seconds. -/
def ofSeconds (n : Nat) : Clock where
  hours := n / 3600
  minutes := n / 60 % 60
  seconds := n % 60

theorem total_ofSeconds (n : Nat) : (ofSeconds n).total = n := by
  simp only [total, ofSeconds]
  omega

end Clock

namespace ServerInfo

/-- **An uptime is read back from its hours, minutes and seconds.** None of the three exceeds 32 bits,
since none exceeds the uptime. -/
theorem uptimeOf_text {c : Clock} {uptime : Int32} (h : c.total = uptime.toInt) :
    uptimeOf c.text = uptime := by
  rw [Clock.total] at h
  obtain ⟨hhours, hminutes, hseconds⟩ : Fits c.hours ∧ Fits c.minutes ∧ Fits c.seconds :=
    fits_of_fits_span (h ▸ fits_toInt uptime)
  rw [Clock.text, Clock.numerals, uptimeOf_digits (Numeral.natural?_padded _ _)
    (Numeral.natural?_padded _ _) (Numeral.natural?_padded _ _),
    counted_of_fits hhours, counted_of_fits hminutes, counted_of_fits hseconds, h, fitted_toInt]

end ServerInfo

/-! ## The time on the clock -/

/-- A word with blanks in front of it. -/
structure SpacedWord where
  /-- The blanks. -/
  gap : String
  /-- The word. -/
  word : String
  /-- There is a blank. -/
  gap_ne_empty : gap ≠ "" := by decide
  /-- There is nothing but blanks. -/
  isBlank_gap : gap.toList.all Text.isBlank = true := by decide
  /-- There is a word. -/
  word_ne_empty : word ≠ "" := by decide
  /-- It holds no blank. -/
  isBlank_word : word.toList.any Text.isBlank = false := by decide

namespace SpacedWord

/-- The blanks and the word. -/
def text (w : SpacedWord) : String := w.gap ++ w.word

/-- **Words with blanks in front of them are the words behind any text.** -/
theorem words_append_join (ws : List SpacedWord) (cs : List Char) :
    Text.words (cs ++ (String.join (ws.map text)).toList) =
      Text.words cs ++ ws.map fun w => w.word.toList := by
  induction ws generalizing cs with
  | nil => simp
  | cons w ws ih =>
    have hplain : ∀ c ∈ w.word.toList, Text.isBlank c = false := fun c hc =>
      eq_false_of_ne_true (List.any_eq_false.mp w.isBlank_word c hc)
    have hword : Text.words w.word.toList = [w.word.toList] :=
      Text.words_eq_singleton (fun hnil => w.word_ne_empty (String.toList_eq_nil_iff.mp hnil))
        hplain
    have hblank : ∀ c ∈ w.gap.toList, Text.isBlank c = true := List.all_eq_true.mp w.isBlank_gap
    have hgap : w.gap.toList ≠ [] := fun hnil => w.gap_ne_empty (String.toList_eq_nil_iff.mp hnil)
    have htext : (String.join ((w :: ws).map text)).toList =
        w.gap.toList ++ (w.word.toList ++ (String.join (ws.map text)).toList) := by
      simp [text]
    rw [htext, Text.words_append_gap hgap hblank, ih, hword, List.map_cons,
      List.singleton_append]

end SpacedWord

/-- The text of a time with the words of its offset behind it. -/
def dateText (t : Timestamp) (offset : List SpacedWord) : String :=
  t.text ++ String.join (offset.map SpacedWord.text)

namespace ServerInfo

/-- **The words of a time with its offset**: the date, the time of day, and those of the offset. -/
theorem words_dateText (t : Timestamp) (offset : List SpacedWord) :
    Text.words (dateText t offset).toList =
      (Layout.ymd '/').write t :: Layout.hms.write t :: offset.map fun w => w.word.toList := by
  rw [dateText, String.toList_append, SpacedWord.words_append_join, t.words_text]
  rfl

/-- The time is that of the first two words. -/
theorem dateOfWords_dateText (t : Timestamp) (offset : List SpacedWord) :
    dateOfWords (Text.words (dateText t offset).toList) = t := by
  have htext : String.ofList ((Layout.ymd '/').write t ++ ' ' :: Layout.hms.write t) = t.text := by
    rw [← t.toList_text, String.ofList_toList]
  rw [words_dateText, dateOfWords, htext, Timestamp.parse_text]

/-- The offset is what the other words say. -/
theorem offsetOfWords_dateText (t : Timestamp) (offset : List SpacedWord) :
    offsetOfWords (Text.words (dateText t offset).toList) =
      String.intercalate " " (offset.map SpacedWord.word) := by
  rw [words_dateText, offsetOfWords, ← String.toList_inj, String.toList_ofList,
    String.toList_intercalate, List.map_map]
  rfl

end ServerInfo

/-! ## Whole descriptions -/

/-- A description of a server, with all that its written form leaves open. -/
structure WrittenInfo where
  /-- The name of the server. -/
  name : String
  /-- Its address. -/
  address : String
  /-- Its root directory. -/
  root : String
  /-- The time on its clock. -/
  date : Timestamp
  /-- The words of the offset, with the blanks in front of them. -/
  offset : List SpacedWord
  /-- The seconds since it was started. -/
  uptime : Int32
  /-- The hours, minutes and seconds that are written for them. -/
  clock : Clock
  /-- They make up the uptime. -/
  total_clock : clock.total = uptime.toInt
  /-- Its version. -/
  version : Version
  /-- The version can be written. -/
  writable_version : version.Writable
  /-- The address that the license is for. -/
  licenseIp : String
  /-- Names that differ in case alone are different. -/
  caseSensitive : Bool
  /-- Texts are in Unicode. -/
  unicodeEnabled : Bool
  /-- Files can be moved. -/
  moveEnabled : Bool

namespace WrittenInfo

/-- The spelling of a switch. -/
def switchText (on : Bool) : String := if on then "enabled" else "disabled"

/-- The fields of a description. There is no license. -/
def fields (w : WrittenInfo) : List (String × String) :=
  [("serverName", w.name),
    ("serverAddress", w.address),
    ("serverRoot", w.root),
    ("serverDate", dateText w.date w.offset),
    ("serverUptime", w.clock.text),
    ("serverVersion", w.version.text),
    ("serverLicense", "none"),
    ("serverLicense-ip", w.licenseIp),
    ("caseHandling", if w.caseSensitive then "sensitive" else "insensitive"),
    ("unicode", switchText w.unicodeEnabled),
    ("move", switchText w.moveEnabled)]

/-- What is said by a description that was read from a record. -/
def info (w : WrittenInfo) (r : Record) : ServerInfo where
  name := w.name
  address := w.address
  root := w.root
  date := w.date
  dateOffset := String.intercalate " " (w.offset.map SpacedWord.word)
  uptime := w.uptime
  version := w.version
  license := none
  licenseIp := w.licenseIp
  caseSensitive := w.caseSensitive
  unicodeEnabled := w.unicodeEnabled
  moveEnabled := w.moveEnabled
  raw := r

/-- A description is read from any record in which its fields are found. -/
theorem decode_eq {w : WrittenInfo} {r : Record}
    (h : ∀ field ∈ w.fields, r.get? field.1 = some field.2) : ServerInfo.decode r = w.info r := by
  simp only [fields, List.forall_mem_cons] at h
  obtain ⟨hname, haddress, hroot, hdate, huptime, hversion, hlicense, hlicenseIp, hcase, hunicode,
    hmove, -⟩ := h
  have hnone : License.ofSummary? "none" = none := by decide
  have hsensitive : decide (some (if w.caseSensitive then "sensitive" else "insensitive") =
      some "sensitive") = w.caseSensitive := by
    cases w.caseSensitive <;> decide
  have hflag : flagValue (switchText w.unicodeEnabled) = w.unicodeEnabled := by
    cases w.unicodeEnabled <;> decide
  have hmoves : decide (some (switchText w.moveEnabled) ≠ some "disabled") = w.moveEnabled := by
    cases w.moveEnabled <;> decide
  simp only [ServerInfo.decode, Record.get, Record.flag, hname, haddress, hroot, hdate, huptime,
    hversion, hlicense, hlicenseIp, hcase, hunicode, hmove, Option.getD_some, Option.map_some,
    Option.bind_some, ServerInfo.dateOfWords_dateText, ServerInfo.offsetOfWords_dateText,
    ServerInfo.uptimeOf_text w.total_clock, Version.parse_text w.writable_version, hnone,
    hsensitive, hflag, hmoves]
  rfl

/-- **A description is read back from its record**, in whatever order its fields are put in, and with
any other fields beside them. -/
theorem decode_ofList (w : WrittenInfo) {fields others : List (String × String)}
    (hothers : ∀ field ∈ others, field.1 ∉ w.fields.map Prod.fst)
    (hfields : fields.Perm (w.fields ++ others)) :
    ServerInfo.decode (Record.ofList fields) = w.info (Record.ofList fields) := by
  have hnodup : (w.fields.map Prod.fst).Nodup := by
    simp only [WrittenInfo.fields, List.map_cons, List.map_nil]
    decide
  exact decode_eq fun field hfield =>
    Record.get?_ofList_of_perm hnodup hothers hfields hfield

/-- The longest uptime, a leap second before year 0, an offset behind a tab, and a version without a
product and with a year of five digits, in a record with a key of another answer. -/
theorem decode_ofList_longest_uptime :
    let r := Record.ofList
      [("move", "disabled"), ("unicode", "enabled"), ("caseHandling", "insensitive"),
        ("serverLicense-ip", "10.0.0.5"), ("serverLicense", "none"),
        ("serverVersion", "/LINUX 26/2023.1/) (+12024/02/29)"), ("serverUptime", "596523:14:07"),
        ("serverDate", "-0001/12/31 23:59:60\t-0800  PST"), ("serverRoot", "/p4/root"),
        ("serverAddress", "localhost:1666"), ("serverName", "none"), ("userName", "alice")]
    ServerInfo.decode r =
      { name := "none", address := "localhost:1666", root := "/p4/root"
        date := { date := ⟨-1, 12, 31, by decide⟩, hour := 23, minute := 59, second := 60 }
        dateOffset := "-0800 PST", uptime := 2147483647
        version := { product := "", platform := "LINUX 26", major := "2023.1", minor := ")"
                     date := .midnight ⟨12024, 2, 29, by decide⟩ }
        licenseIp := "10.0.0.5", unicodeEnabled := true, moveEnabled := false, raw := r } := by
  let w : WrittenInfo :=
    { name := "none", address := "localhost:1666", root := "/p4/root"
      date := { date := ⟨-1, 12, 31, by decide⟩, hour := 23, minute := 59, second := 60 }
      offset := [{ gap := "\t", word := "-0800" }, { gap := "  ", word := "PST" }]
      uptime := 2147483647, clock := .ofSeconds 2147483647
      total_clock := by rw [Clock.total_ofSeconds]; decide
      version := { product := "", platform := "LINUX 26", major := "2023.1", minor := ")"
                   date := .midnight ⟨12024, 2, 29, by decide⟩ }
      writable_version := ⟨by decide, rfl⟩
      licenseIp := "10.0.0.5", caseSensitive := false, unicodeEnabled := true, moveEnabled := false }
  have hothers : ∀ field ∈ [("userName", "alice")], field.1 ∉ w.fields.map Prod.fst := by decide
  have huptime : w.clock.text = "596523:14:07" := by decide
  have hdate : dateText w.date w.offset = "-0001/12/31 23:59:60\t-0800  PST" := by decide
  have hversion : w.version.text = "/LINUX 26/2023.1/) (+12024/02/29)" := by decide
  refine w.decode_ofList hothers ?_
  rw [fields, huptime, hdate, hversion]
  decide

end WrittenInfo

end DepotClient
