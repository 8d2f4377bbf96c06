import DepotClient.License.Basic

/-! # What a server says about itself

One record tells a server's name, address, clock, version, license and settings. `ServerInfo.decode`
reads it; a key that is missing leaves the default, which for moving files is that it is allowed. A
version stands there as `product/platform/major/minor (yyyy/mm/dd)` (`Version.parse`). -/

namespace DepotClient

/-! ## Versions -/

/-- The version of a server. -/
structure Version where
  /-- The program. -/
  product : String := ""
  /-- The platform that it was made for. -/
  platform : String := ""
  /-- The release. -/
  major : String := ""
  /-- The change from which it was made. -/
  minor : String := ""
  /-- The day on which it was made. -/
  date : Timestamp := .unset
deriving DecidableEq

namespace Version

instance : Inhabited Version := ⟨{}⟩

/-- What surrounds the date of a version. -/
def isBracket (c : Char) : Bool := c == '(' || c == ')' || Text.isBlank c

/-- A text without brackets and blanks at its ends. -/
def stripBrackets (cs : List Char) : List Char :=
  ((cs.dropWhile isBracket).reverse.dropWhile isBracket).reverse

/-- Reads a version. The four parts stand before the first bracket, the date behind it; parts that
are missing stay empty, and further ones are ignored. -/
def parse (value : String) : Version :=
  let parts := (Text.cut (· == '/') (Text.trim (value.toList.takeWhile (· ≠ '(')))).map fun part =>
    String.ofList (Text.trim part)
  let date := stripBrackets (value.toList.dropWhile (· ≠ '('))
  { product := parts[0]?.getD ""
    platform := parts[1]?.getD ""
    major := parts[2]?.getD ""
    minor := parts[3]?.getD ""
    date := .parse (String.ofList date) }

end Version

/-! ## Descriptions -/

/-- A server's description of itself. -/
structure ServerInfo where
  /-- The name of the server. -/
  name : String := ""
  /-- Its address. -/
  address : String := ""
  /-- Its root directory. -/
  root : String := ""
  /-- The time on its clock. -/
  date : Timestamp := .unset
  /-- The distance of its clock from UTC, and the name of its time zone. -/
  dateOffset : String := ""
  /-- The seconds since it was started. -/
  uptime : Int32 := 0
  /-- Its version. -/
  version : Version := {}
  /-- Its license, if it has one. -/
  license : Option License := none
  /-- The address that the license is for. -/
  licenseIp : String := ""
  /-- Names that differ in case alone are different. -/
  caseSensitive : Bool := false
  /-- Texts are in Unicode. -/
  unicodeEnabled : Bool := false
  /-- Files can be moved. -/
  moveEnabled : Bool := true
  /-- The record that was read. -/
  raw : Record := ∅
deriving DecidableEq

namespace ServerInfo

instance : Inhabited ServerInfo := ⟨{}⟩

/-- The time in the first two words of a text, or in its only one. -/
def dateOfWords : List (List Char) → Timestamp
  | [] => .unset
  | [date] => .parse (String.ofList date)
  | date :: time :: _ => .parse (String.ofList (date ++ ' ' :: time))

/-- The words behind the time, with one space between them. -/
def offsetOfWords (words : List (List Char)) : String :=
  String.ofList (List.intercalate [' '] (words.drop 2))

/-- Sixty times the seconds so far, and those of the next part; nothing if a step does not fit in
32 bits. -/
def addSeconds? (seconds : Int32) (part : List Char) : Option Int32 :=
  (Numeral.fit32? (seconds.toInt * 60)).bind fun n =>
    Numeral.fit32? (n.toInt + (intValue (String.ofList part)).toInt)

/-- The seconds of an uptime: hours, minutes and seconds with colons between them, or seconds
alone. An uptime that does not fit in 32 bits is zero. -/
def uptimeOf (value : String) : Int32 :=
  match Text.cut (· == ':') (Text.trim value.toList) with
  | [hours, minutes, seconds] => ([hours, minutes, seconds].foldlM addSeconds? 0).getD 0
  | _ => intValue value

/-- The description that a record holds. -/
def decode (r : Record) : ServerInfo :=
  let words := Text.words (r.get "serverDate").toList
  { name := r.get "serverName"
    address := r.get "serverAddress"
    root := r.get "serverRoot"
    date := dateOfWords words
    dateOffset := offsetOfWords words
    uptime := ((r.get? "serverUptime").map uptimeOf).getD 0
    version := ((r.get? "serverVersion").map .parse).getD {}
    license := (r.get? "serverLicense").bind License.ofSummary?
    licenseIp := r.get "serverLicense-ip"
    caseSensitive := r.get? "caseHandling" = some "sensitive"
    unicodeEnabled := r.flag "unicode"
    moveEnabled := r.get? "move" ≠ some "disabled"
    raw := r }

end ServerInfo

end DepotClient
