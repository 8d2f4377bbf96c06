import DepotClient.Json.Reader
import DepotClient.Record.Basic
import DepotClient.Session.Profile
import DepotClient.Session.Properties

/-! # Things in the form of JSON

A type with a `JsonForm` is written as a JSON value and read from one. Reading is strict about the
value's kind and about the fields that are looked for: a field must not be repeated, and one that
is required must be there. Fields that are not looked for do not matter.

Records have such a form, and so has what the server reports and what a session is configured
with. -/

namespace DepotClient

/-- A type whose values have a JSON form. -/
class JsonForm (α : Type) where
  /-- The JSON form of a value. -/
  toJson : α → Json
  /-- The value of a JSON form. -/
  ofJson? : Json → Option α

namespace Json

/-- The value that a document holds the form of. -/
def read? {α : Type} [JsonForm α] (document : String) : Option α :=
  (parse? document).bind JsonForm.ofJson?

/-! ## Objects -/

/-- The fields of an object, by the text of their keys. -/
def fields? : Json → Option (List (String × Json))
  | object fields => fields.mapM fun field => (textOfUnits? field.1).map (·, field.2)
  | _ => none

/-- The object with the given fields. -/
def ofFields (fields : List (String × Json)) : Json :=
  object (fields.map fun field => (unitsOfText field.1, field.2))

/-- The values under a key. -/
def valuesUnder (fields : List (String × Json)) (key : String) : List Json :=
  (fields.filter fun field => field.1 = key).map Prod.snd

/-- The value under a key that must be there once. -/
def required? (fields : List (String × Json)) (key : String) : Option Json :=
  match valuesUnder fields key with
  | [v] => some v
  | _ => none

/-- The value under a key that may be there once; a key that is missing counts as null. -/
def optional? (fields : List (String × Json)) (key : String) : Option Json :=
  match valuesUnder fields key with
  | [] => some null
  | [v] => some v
  | _ => none

/-- The text under a key that must be there once. -/
def requiredText? (fields : List (String × Json)) (key : String) : Option String :=
  (required? fields key).bind text?

/-- Reads a value that may be null. -/
def nullable? {α : Type} (read : Json → Option α) : Json → Option (Option α)
  | null => some none
  | v => (read v).map some

/-- The integer under a key that must be there once, if it lies between the given bounds. -/
def requiredInteger? (fields : List (String × Json)) (key : String) (least greatest : Int) :
    Option Int :=
  ((required? fields key).bind integer?).filter fun n => least ≤ n ∧ n ≤ greatest

end Json

/-! ## Records -/

/-- A record is an object of texts; of a repeated key the last value counts. -/
instance : JsonForm Record where
  toJson r := .ofFields (r.toList.map fun field => (field.1, .ofText field.2))
  ofJson? v := do
    let fields ← v.fields?
    let texts ← fields.mapM fun field => field.2.text?.map (field.1, ·)
    return .ofList texts

open Json

/-! ## Errors -/

/-- The name of a severity in its JSON form. -/
def Severity.name : Severity → String
  | empty => "Empty"
  | info => "Info"
  | warning => "Warning"
  | failed => "Failed"
  | fatal => "Fatal"

/-- The severity with a name. -/
def Severity.ofName? (name : String) : Option Severity := all.find? fun s => s.name = name

/-- A severity is its name, and may also be read from an object with null under its name. -/
instance : JsonForm Severity where
  toJson s := .ofText s.name
  ofJson? v :=
    match v with
    | object [(key, null)] => (textOfUnits? key).bind Severity.ofName?
    | v => v.text?.bind Severity.ofName?

/-- An error is an object of code, severity and message. -/
instance : JsonForm ServerError where
  toJson e := .ofFields [("code", .ofInteger e.code.toInt),
    ("severity", JsonForm.toJson e.severity), ("message", .ofText e.message)]
  ofJson? v := do
    let fields ← v.fields?
    let code ← ((required? fields "code").bind integer?).bind Numeral.fit32?
    let severity ← (required? fields "severity").bind JsonForm.ofJson?
    let message ← requiredText? fields "message"
    return ⟨code, severity, message⟩

/-- A list of errors is an array. -/
instance : JsonForm ServerErrors where
  toJson l := .array (l.errors.map JsonForm.toJson)
  ofJson? v :=
    match v with
    | array items => (items.mapM JsonForm.ofJson?).map ServerErrors.mk
    | _ => none

/-! ## Configuration -/

/-- Trust settings are an object of flag and fingerprint. -/
instance : JsonForm Trust where
  toJson t := .ofFields [("flag", .ofText t.flag), ("fingerprint", .ofText t.fingerprint)]
  ofJson? v := do
    let fields ← v.fields?
    return ⟨← requiredText? fields "flag", ← requiredText? fields "fingerprint"⟩

/-- A configuration is an object in which the directory and the trust settings may be missing. -/
instance : JsonForm Profile where
  toJson c := .ofFields [("port", .ofText c.address), ("user", .ofText c.user),
    ("password", .ofText c.password), ("client", .ofText c.client),
    ("cwd", (c.directory.map Json.ofText).getD null),
    ("trust", (c.trust.map JsonForm.toJson).getD null)]
  ofJson? v := do
    let fields ← v.fields?
    let address ← requiredText? fields "port"
    let user ← requiredText? fields "user"
    let password ← requiredText? fields "password"
    let client ← requiredText? fields "client"
    let directory ← (optional? fields "cwd").bind (nullable? text?)
    let trust ← (optional? fields "trust").bind (nullable? JsonForm.ofJson?)
    return { address, user, password, client, directory, trust }

/-! ## Properties -/

/-- The two keys of a timeout. -/
def Timeout.keys : List String := ["secs", "nanos"]

/-- A timeout is an object of seconds and of billionths of a second, without further fields. -/
instance : JsonForm Timeout where
  toJson t := .ofFields [("secs", .ofInteger t.seconds.toNat), ("nanos", .ofInteger t.nanoseconds)]
  ofJson? v := do
    let fields ← v.fields?
    guard (fields.all fun field => Timeout.keys.contains field.1)
    let seconds ← requiredInteger? fields "secs" 0 18446744073709551615
    let nanoseconds ← requiredInteger? fields "nanos" 0 4294967295
    Timeout.of? seconds.toNat nanoseconds.toNat

/-- The properties of a session are an object of the four of them. -/
instance : JsonForm Properties where
  toJson p := .ofFields [("program_name", .ofText p.programName),
    ("program_version", .ofText p.programVersion), ("character_set", .ofText p.characterSet),
    ("command_timeout", JsonForm.toJson p.commandTimeout)]
  ofJson? v := do
    let fields ← v.fields?
    let programName ← requiredText? fields "program_name"
    let programVersion ← requiredText? fields "program_version"
    let characterSet ← requiredText? fields "character_set"
    let commandTimeout ← (required? fields "command_timeout").bind JsonForm.ofJson?
    return { programName, programVersion, characterSet, commandTimeout }

end DepotClient
