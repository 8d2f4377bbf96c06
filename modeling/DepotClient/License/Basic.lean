import DepotClient.Calendar.Layout
import DepotClient.Record.Family
import DepotClient.Record.Schema

/-! # The license of a server

A server describes its license in several records: the license itself, its use against its limits,
and one record for each network interface of the host. `License.merge` adds what one record says;
`License.ofRecords?` goes through a whole answer. A server also sums its license up
in one line, which `License.ofSummary?` reads. -/

namespace DepotClient

/-! ## Network interfaces -/

/-- A network interface of the server's host. -/
structure NetworkInterface where
  /-- The name of the interface. -/
  interface : String := ""
  /-- Its address in version 4 of the protocol. -/
  ipv4Address : String := ""
  /-- Its address in version 6 of the protocol. -/
  ipv6Address : String := ""
  /-- The address of its hardware. -/
  macAddress : String := ""
deriving DecidableEq

namespace NetworkInterface

instance : Inhabited NetworkInterface := ⟨{}⟩

/-- The keys of an interface. -/
def schema : Schema NetworkInterface :=
  [("interface", fun v a => { a with interface := v }),
    ("ipv4Address", fun v a => { a with ipv4Address := v }),
    ("ipv6Address", fun v a => { a with ipv6Address := v }),
    ("macAddress", fun v a => { a with macAddress := v })]

/-- The interface that a record describes. -/
def decode (r : Record) : NetworkInterface := schema.decode r

end NetworkInterface

/-! ## Licenses -/

/-- What a server says about its license. -/
@[ext] structure License where
  /-- The key of the license. -/
  license : String := ""
  /-- When it expires, in seconds since 1970. -/
  licenseExpires : Int64 := 0
  /-- When support for it expires, in seconds since 1970. -/
  supportExpires : Int64 := 0
  /-- Who holds it. -/
  customer : String := ""
  /-- The application that it is for. -/
  application : String := ""
  /-- The address that it is for. -/
  ipAddress : String := ""
  /-- The platform that it is for. -/
  platform : String := ""
  /-- The number of workspaces that it allows. -/
  clients : String := ""
  /-- The number of users that it allows. -/
  users : Int32 := 0
  /-- Further things that it allows. -/
  extraCapabilities : List String := []
  /-- The server has a license. -/
  isLicensed : Bool := false
  /-- The number of users. -/
  userCount : String := ""
  /-- The limit on users. -/
  userLimit : String := ""
  /-- The number of workspaces. -/
  clientCount : String := ""
  /-- The limit on workspaces. -/
  clientLimit : String := ""
  /-- The number of files. -/
  fileCount : String := ""
  /-- The limit on files. -/
  fileLimit : String := ""
  /-- The number of repositories. -/
  repoCount : String := ""
  /-- The limit on repositories. -/
  repoLimit : String := ""
  /-- The seconds until the license expires. -/
  licenseTimeRemaining : Int64 := 0
  /-- The network interfaces of the host. -/
  interfaces : List NetworkInterface := []
  /-- The day on which the license expires, as a summary shows it. -/
  expires : Timestamp := .unset
  /-- The last record that was merged and describes no interface. -/
  raw : Record := ∅
deriving DecidableEq

namespace License

instance : Inhabited License := ⟨{}⟩

/-- The first word of a value. A readable form of the same date may stand behind it. -/
def leadingWord (value : String) : String :=
  String.ofList ((Text.words value.toList).head?.getD [])

/-- The keys of a license. Each expiry has two keys, and the one in plain seconds wins. -/
def schema : Schema License :=
  [("License", fun v l => { l with license := v }),
    ("License-Expires", fun v l => { l with licenseExpires := longValue (leadingWord v) }),
    ("Support-Expires", fun v l => { l with supportExpires := longValue (leadingWord v) }),
    ("Customer", fun v l => { l with customer := v }),
    ("Application", fun v l => { l with application := v }),
    ("IPaddress", fun v l => { l with ipAddress := v }),
    ("Platform", fun v l => { l with platform := v }),
    ("Clients", fun v l => { l with clients := v }),
    ("Users", fun v l => { l with users := intValue v }),
    ("isLicensed", fun v l => { l with isLicensed := flagValue v }),
    ("userCount", fun v l => { l with userCount := v }),
    ("userLimit", fun v l => { l with userLimit := v }),
    ("clientCount", fun v l => { l with clientCount := v }),
    ("clientLimit", fun v l => { l with clientLimit := v }),
    ("fileCount", fun v l => { l with fileCount := v }),
    ("fileLimit", fun v l => { l with fileLimit := v }),
    ("repoCount", fun v l => { l with repoCount := v }),
    ("repoLimit", fun v l => { l with repoLimit := v }),
    ("licenseExpires", fun v l => { l with licenseExpires := longValue v }),
    ("supportExpires", fun v l => { l with supportExpires := longValue v }),
    ("licenseTimeRemaining", fun v l => { l with licenseTimeRemaining := longValue v })]

/-- The capabilities after a record: its own list if it has one, else those known before. -/
def mergeCapabilities (known : List String) (r : Record) : List String :=
  match r.family "ExtraCapabilities" with
  | [] => known
  | capabilities => capabilities

/-- The license with what one record says. What the record leaves out keeps its value. -/
def merge (l : License) (r : Record) : License :=
  { schema.apply r "" l with
    extraCapabilities := mergeCapabilities l.extraCapabilities r
    raw := r }

/-- The license that one record describes. -/
def decode (r : Record) : License := merge {} r

/-- The license after one record of an answer: an interface is added to the list, and any other
record is merged unless it is empty. -/
def addRecord (l : License) (r : Record) : License :=
  if r.isEmpty then l
  else if r.contains "interface" then
    { l with interfaces := l.interfaces ++ [NetworkInterface.decode r] }
  else l.merge r

/-- The license that an answer describes, if there is a record at all. -/
def ofRecords? (records : List Record) : Option License :=
  if records = [] then none else some (records.foldl addRecord {})

/-! ## Licenses in one line

A server also sums its license up in free text, `Acme 25 users (expires 2025/06/30)`. Two facts
are looked for, each on its own and wherever it stands: the number of users, and the day on which
the license expires. Letters match in either case, and digits of any script count as digits; but
a number or a date that is not written in ASCII digits says nothing. -/

/-! ### The number of users -/

/-- The first maximal run of digits with the word for users behind it, in a text before which the
given digits stand, last one first. -/
def usersIn? (run : List Char) : List Char → Option (List Char)
  | [] => none
  | c :: cs =>
    if Text.isDecimalDigit c then usersIn? (c :: run) cs
    else if run ≠ [] ∧ (Text.afterFolded? " users".toList (c :: cs)).isSome then some run.reverse
    else usersIn? [] cs

/-! ### The day of expiry -/

/-- Holds if a text begins with characters of the given classes, one after the other. -/
def beginsWith : List (Char → Bool) → List Char → Bool
  | [], _ => true
  | _ :: _, [] => false
  | p :: ps, c :: cs => p c && beginsWith ps cs

/-- Year, month and day in digits, with slashes between them. -/
def dateShape : List (Char → Bool) :=
  let d := Text.isDecimalDigit
  [d, d, d, d, (· == '/'), d, d, (· == '/'), d, d]

/-- The date in the phrase at the start of a text that tells the day of expiry. -/
def expiryAt? (cs : List Char) : Option (List Char) :=
  (Text.afterFolded? "(expires ".toList cs).bind fun rest =>
    if beginsWith (dateShape ++ [(· == ')')]) rest then some (rest.take dateShape.length) else none

/-- The date in the first such phrase of a text. -/
def expiryIn? : List Char → Option (List Char)
  | [] => none
  | c :: cs => (expiryAt? (c :: cs)).or (expiryIn? cs)

/-! ### Both -/

/-- The license that a summary describes. An empty text and the word `none` describe none. -/
def ofSummary? (summary : String) : Option License :=
  let cs := Text.trim summary.toList
  if cs = [] ∨ cs = "none".toList then none
  else some { ({} : License) with
    users := ((usersIn? [] cs).map fun ds => intValue (String.ofList ds)).getD 0
    expires := ((expiryIn? cs).map fun ds => Timestamp.parse (String.ofList ds)).getD .unset }

end License

end DepotClient
