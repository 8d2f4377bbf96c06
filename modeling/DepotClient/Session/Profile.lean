import DepotClient.Session.Failure
import DepotClient.Text.Basic

/-! # Configuration of a session

What is needed to connect to a server: its address, who connects, and which fingerprint of the
server is trusted. A configuration is made field by field or from the variables of an environment
(`Profile.ofVariables`); it can be used if it names an address, or else a working directory
in which an address is found (`Profile.check`). -/

namespace DepotClient

/-- What is trusted about a server. An empty text is not given. -/
structure Trust where
  /-- The option passed on to the server. -/
  flag : String
  /-- The fingerprint that the server should have. -/
  fingerprint : String
deriving DecidableEq

/-- Holds if nothing is given. -/
def Trust.isEmpty (t : Trust) : Bool := t.flag = "" ∧ t.fingerprint = ""

/-- How to connect to a server. -/
structure Profile where
  /-- The address of the server. -/
  address : String := ""
  /-- The name of the user. -/
  user : String := ""
  /-- The password of the user. -/
  password : String := ""
  /-- The name of the workspace. -/
  client : String := ""
  /-- The working directory. -/
  directory : Option String := none
  /-- What is trusted about the server. -/
  trust : Option Trust := none
deriving DecidableEq

namespace Profile

/-- The configuration with other trust settings. Settings that give nothing are dropped. -/
def withTrust (c : Profile) (t : Trust) : Profile :=
  { c with trust := if t.isEmpty then none else some t }

/-- The trust settings, unless they give nothing. -/
def effectiveTrust? (c : Profile) : Option Trust :=
  c.trust.filter fun t => !t.isEmpty

/-- Success if the configuration can be used: there is an address that is not blank, or else
a working directory. -/
def check (c : Profile) : Except Failure Unit :=
  if Text.trim c.address.toList = [] ∧ c.directory = none then .error .noAddress else .ok ()

/-! ## Variables of an environment -/

/-- An environment: the text of each variable, or why there is none. -/
abbrev Environment := String → Except VariableFault String

/-- The text of a variable that must be present. -/
def required (env : Environment) (name : String) : Except Failure String :=
  (env name).mapError (.unreadableVariable name)

/-- The text of a variable, empty if it is not present. -/
def optional (env : Environment) (name : String) : Except Failure String :=
  match env name with
  | .error .notPresent => .ok ""
  | answer => answer.mapError (.unreadableVariable name)

/-- The configuration that six variables describe, if it can be used. -/
def ofVariables (env : Environment) : Except Failure Profile := do
  let address ← required env "P4PORT"
  let user ← optional env "P4USER"
  let password ← optional env "P4PASSWD"
  let client ← optional env "P4CLIENT"
  let flag ← optional env "P4TRUST_FLAG"
  let fingerprint ← optional env "P4FINGERPRINT"
  let config := withTrust { address, user, password, client } ⟨flag, fingerprint⟩
  config.check
  return config

/-- The text in the bytes of a variable. -/
def variableText (bytes : List UInt8) : Except VariableFault String :=
  match Text.utf8Text? bytes with
  | some s => .ok s
  | none => .error (.notUnicode bytes)

end Profile

end DepotClient
