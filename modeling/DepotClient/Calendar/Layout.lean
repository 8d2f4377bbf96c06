import DepotClient.Calendar.Timestamp
import DepotClient.Text.Numeral
import DepotClient.Text.Words

/-! # Layouts of dates and times

A `Layout` lists the parts of a time in the order in which a text shows them, with the signs
between them. `Layout.write` writes a time in a layout and `Layout.read?` reads it back.

Reading is more generous than writing: blanks before a number are skipped, a number may have fewer
digits than its width, a year may have a sign and then any number of digits, and any run of blanks,
even an empty one, stands for a space. The whole text must be used up, and the parts must name a
time that exists.

Some records give times in seconds instead; a `TimeNotation` tells which of the two a record uses. -/

namespace DepotClient

/-! ## Layouts -/

/-- One part of a layout. -/
inductive LayoutItem
  /-- The year: four digits, or a sign and at least four. -/
  | year
  /-- The month: two digits. -/
  | month
  /-- The day of the month: two digits. -/
  | day
  /-- The hour: two digits. -/
  | hour
  /-- The minute: two digits. -/
  | minute
  /-- The second: two digits. -/
  | second
  /-- A sign, which must stand in the text as it is. -/
  | sign (c : Char)
  /-- A space. -/
  | space
deriving DecidableEq

/-- The parts of a written time, in order. -/
abbrev Layout := List LayoutItem

namespace Layout

/-- Year, month and day with a sign between them. -/
def ymd (c : Char) : Layout := [.year, .sign c, .month, .sign c, .day]

/-- Hour, minute and second with colons between them. -/
def hms : Layout := [.hour, .sign ':', .minute, .sign ':', .second]

/-- The layout in which the server writes times. -/
def server : Layout := ymd '/' ++ .space :: hms

/-- The layout of a time inside a revision specifier. -/
def specifier : Layout := ymd '/' ++ .sign ':' :: hms

/-- Dashes in the date and a space behind it. -/
def dashed : Layout := ymd '-' ++ .space :: hms

/-- Dashes in the date and a letter T behind it. -/
def dashedT : Layout := ymd '-' ++ .sign 'T' :: hms

/-- The layouts of a date with a time, in the order in which they are tried. -/
def dateTimes : List Layout := [server, specifier, dashed, dashedT]

/-- The layouts of a date alone, in the order in which they are tried. -/
def dates : List Layout := [ymd '/', ymd '-']

end Layout

/-- The conventional symbol of a part. -/
def LayoutItem.symbol : LayoutItem → String
  | .year => "%Y"
  | .month => "%m"
  | .day => "%d"
  | .hour => "%H"
  | .minute => "%M"
  | .second => "%S"
  | .sign c => String.singleton c
  | .space => " "

/-- The conventional symbols of a layout's parts, in a row. -/
def Layout.symbols (layout : Layout) : String := String.join (layout.map LayoutItem.symbol)

/-! ## Writing -/

/-- The year as it is written: four digits up to 9999, else a sign and at least four digits. -/
def yearText (year : Int) : List Char :=
  if 0 ≤ year ∧ year ≤ 9999 then Numeral.padded 4 year.toNat
  else (if year < 0 then '-' else '+') :: Numeral.padded 4 year.natAbs

/-- The text of one part of a time. -/
def LayoutItem.write (t : Timestamp) : LayoutItem → List Char
  | .year => yearText t.date.year
  | .month => Numeral.padded 2 t.date.month
  | .day => Numeral.padded 2 t.date.day
  | .hour => Numeral.padded 2 t.hour
  | .minute => Numeral.padded 2 t.minute
  | .second => Numeral.padded 2 t.second
  | .sign c => [c]
  | .space => [' ']

/-- The text of a time in a layout. -/
def Layout.write (layout : Layout) (t : Timestamp) : List Char :=
  layout.flatMap (LayoutItem.write t)

/-! ## Reading -/

/-- The parts of a time as they stand in a text, before it is known that such a time exists. -/
structure TimeParts where
  /-- The year. -/
  year : Int := 1
  /-- The month. -/
  month : Nat := 1
  /-- The day of the month. -/
  day : Nat := 1
  /-- The hour. -/
  hour : Nat := 0
  /-- The minute. -/
  minute : Nat := 0
  /-- The second. -/
  second : Nat := 0
deriving DecidableEq

/-- The time that the parts name, if it exists. -/
def TimeParts.timestamp? (p : TimeParts) : Option Timestamp :=
  Timestamp.of? p.year p.month p.day p.hour p.minute p.second

/-- The number at the start of a text, from as many digits as there are but at most `width`, and
the text behind them. -/
def leadingNumber? (width : Nat) (cs : List Char) : Option (Nat × List Char) :=
  match (cs.take width).takeWhile Char.isDigit with
  | [] => none
  | ds => some (Nat.ofDigitChars 10 ds 0, cs.drop ds.length)

/-- The year at the start of a text, and the text behind it. With a sign any number of digits
belongs to it, without one at most four. -/
def leadingYear? : List Char → Option (Int × List Char)
  | '-' :: cs => (leadingNumber? cs.length cs).map (Prod.map (fun n : Nat => -(n : Int)) id)
  | '+' :: cs => (leadingNumber? cs.length cs).map (Prod.map Int.ofNat id)
  | cs => (leadingNumber? 4 cs).map (Prod.map Int.ofNat id)

/-- Reads one part at the start of a text. -/
def LayoutItem.read? (item : LayoutItem) (p : TimeParts) (cs : List Char) :
    Option (TimeParts × List Char) :=
  let number := leadingNumber? 2 (Text.trimStart cs)
  match item with
  | .year => (leadingYear? (Text.trimStart cs)).map (Prod.map (fun n => { p with year := n }) id)
  | .month => number.map (Prod.map (fun n => { p with month := n }) id)
  | .day => number.map (Prod.map (fun n => { p with day := n }) id)
  | .hour => number.map (Prod.map (fun n => { p with hour := n }) id)
  | .minute => number.map (Prod.map (fun n => { p with minute := n }) id)
  | .second => number.map (Prod.map (fun n => { p with second := n }) id)
  | .sign c =>
    match cs with
    | [] => none
    | d :: rest => if d = c then some (p, rest) else none
  | .space => some (p, Text.trimStart cs)

/-- Reads the parts of a layout one after the other, and gives the text behind them. -/
def Layout.readParts? : Layout → TimeParts → List Char → Option (TimeParts × List Char)
  | [], p, cs => some (p, cs)
  | item :: layout, p, cs =>
    (item.read? p cs).bind fun next => Layout.readParts? layout next.1 next.2

/-- Reads a whole text as a time in a layout. Parts that the layout does not show are those of the
start of the day. -/
def Layout.read? (layout : Layout) (cs : List Char) : Option Timestamp :=
  (layout.readParts? {} cs).bind fun last =>
    if last.2 = [] then last.1.timestamp? else none

/-! ## Server times as texts -/

namespace Timestamp

/-- The text of a time as the server writes it. -/
def text (t : Timestamp) : String := String.ofList (Layout.server.write t)

instance : ToString Timestamp := ⟨text⟩

/-- The time that a text shows in the first layout that accepts it; a date alone is the start of
that day. Blanks around the text are ignored. -/
def parse? (s : String) : Option Timestamp :=
  (Layout.dateTimes ++ Layout.dates).findSome? fun layout => layout.read? (Text.trim s.toList)

/-- The time that a text shows, `unset` if there is none. -/
def parse (s : String) : Timestamp := (parse? s).getD unset

end Timestamp

/-! ## Times given in seconds

Some commands give times as seconds since 1970, to be moved into the server's time zone. The
server advertises its distance from UTC as a word such as `-0800`, and a flag tells whether one
hour of daylight saving time comes on top.

* **`zoneSeconds`** — the seconds of an advertised distance;
* **`Timestamp.ofEpoch`** — the server time of a count of seconds, `unset` if the text is no
  count or the time, before or after the move, is out of range. -/

/-- Reads `HHMM` as seconds. -/
def hourMinuteSeconds? : List Char → Option Nat
  | [h, h', m, m'] => do
    let hours ← Numeral.natural? [h, h']
    let minutes ← Numeral.natural? [m, m']
    return 3600 * hours + 60 * minutes
  | _ => none

/-- The seconds east of UTC that an advertised distance tells: its first word must be an optional
sign and four digits, hours and minutes. Anything else counts as UTC. -/
def zoneSeconds (offset : String) : Int :=
  match Text.words offset.toList with
  | ('-' :: cs) :: _ => -((hourMinuteSeconds? cs).getD 0 : Int)
  | ('+' :: cs) :: _ => (hourMinuteSeconds? cs).getD 0
  | cs :: _ => (hourMinuteSeconds? cs).getD 0
  | [] => 0

/-- The seconds from UTC to the server's clock. -/
def clockShift (offset : String) (daylightSaving : Bool) : Int :=
  zoneSeconds offset + if daylightSaving then 3600 else 0

namespace Timestamp

/-- The server time of a count of seconds since 1970 in UTC, if the time is in range both in UTC
and on the server's clock. -/
def ofEpoch? (seconds : Int) (shift : Int) : Option Timestamp :=
  (ofEpochSeconds? seconds).bind fun _ => ofEpochSeconds? (seconds + shift)

/-- The server time of a count of seconds given as text, `unset` if there is none. -/
def ofEpoch (seconds offset : String) (daylightSaving : Bool) : Timestamp :=
  ((Numeral.int64? (Text.trim seconds.toList)).bind fun s =>
    ofEpoch? s.toInt (clockShift offset daylightSaving)).getD unset

end Timestamp

/-! ## Both notations -/

/-- How a record represents times. -/
inductive TimeNotation
  /-- Seconds since 1970, to be moved by the server's distance from UTC. -/
  | epoch (offset : String) (daylightSaving : Bool)
  /-- Server times, written out. -/
  | written

/-- The time that a field value represents, `unset` if there is none. -/
def TimeNotation.decode : TimeNotation → String → Timestamp
  | .epoch offset daylightSaving, value => .ofEpoch value offset daylightSaving
  | .written, value => .parse value

end DepotClient
