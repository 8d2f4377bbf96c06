import DepotClient.Text.Escaped
import DepotClient.Text.Numeral

/-! # Failures of a session

What can go wrong between a program and its server: an argument that makes no sense, a connection
that cannot be made or is not trusted, a command that the server refuses, and a setting in the
environment that is missing or not text. Reading records and specifiers never fails in this way,
except where a text is demanded to be a specifier. -/

namespace DepotClient

/-! ## Errors that the server reports

A command that fails answers with a list of errors, each with a code, a severity and a message.
One code is expected when a server is merely probed for its presence; a list with only that code
counts as success there (`ServerErrors.toleratingProbe`). -/

/-- How grave an error is. -/
inductive Severity
  /-- Nothing at all. -/
  | empty
  /-- A message for information. -/
  | info
  /-- A warning. -/
  | warning
  /-- The command failed. -/
  | failed
  /-- The session failed. -/
  | fatal
deriving DecidableEq

namespace Severity

/-- The rank of a severity, from the mildest up. -/
def rank : Severity → Nat
  | empty => 0
  | info => 1
  | warning => 2
  | failed => 3
  | fatal => 4

/-- The graver of two severities. -/
def graver (a b : Severity) : Severity := if a.rank < b.rank then b else a

/-- Severities from the mildest up. -/
def all : List Severity := [empty, info, warning, failed, fatal]

end Severity

/-- One error of the server. -/
structure ServerError where
  /-- The number of the error. -/
  code : Int32
  /-- How grave it is. -/
  severity : Severity
  /-- What the server says about it. -/
  message : String
deriving DecidableEq

/-- The code that a probe of a server meets when what it asks for does not exist yet. -/
def expectedProbeCode : Int32 := 824577061

namespace ServerError

/-- Holds of the error that a probe expects. -/
def isExpected (e : ServerError) : Bool := e.code = expectedProbeCode

/-- The message followed by the code. -/
def text (e : ServerError) : String :=
  e.message ++ " (code " ++ Numeral.text e.code.toInt ++ ")"

end ServerError

/-- The errors of one command, in the order in which the server reports them. -/
structure ServerErrors where
  /-- The errors. -/
  errors : List ServerError
deriving DecidableEq

namespace ServerErrors

/-- A list of one error. -/
def single (e : ServerError) : ServerErrors := ⟨[e]⟩

/-- The texts of all errors in a row. -/
def text (l : ServerErrors) : String :=
  if l.errors = [] then "no error reported"
  else String.intercalate "; " (l.errors.map ServerError.text)

/-- The gravest severity in a list, if it has an error. -/
def gravest? (l : ServerErrors) : Option Severity :=
  match l.errors with
  | [] => none
  | e :: rest => some (rest.foldl (fun s e => s.graver e.severity) e.severity)

/-- Success if every error is the one that a probe expects, else the list. -/
def toleratingProbe (l : ServerErrors) : Except ServerErrors Unit :=
  if l.errors.all ServerError.isExpected then .ok () else .error l

end ServerErrors

/-! ## Failures -/

/-- Why a variable of the environment has no text. -/
inductive VariableFault
  /-- The variable is not set. -/
  | notPresent
  /-- The variable holds bytes that are not text. -/
  | notUnicode (bytes : List UInt8)
deriving DecidableEq

/-- A failure of a session. -/
inductive Failure
  /-- An argument is invalid. -/
  | argument (reason : String)
  /-- No connection can be made. -/
  | connect (reason : String)
  /-- The fingerprint of a server is not trusted. -/
  | untrusted (reason : String)
  /-- The server answers a command with errors. -/
  | commandFailed (command : String) (errors : ServerErrors)
  /-- A variable of the environment has no text. -/
  | unreadableVariable (name : String) (cause : VariableFault)
deriving DecidableEq

/-- The wording of a variable's fault. -/
def VariableFault.message : VariableFault → String
  | notPresent => "environment variable not found"
  | notUnicode bytes => "environment variable was not valid unicode: " ++ Text.escapedBytes bytes

namespace Failure

/-- The wording of a failure. -/
def message : Failure → String
  | argument reason => "Invalid argument: " ++ reason
  | connect reason => reason
  | untrusted reason => reason
  | commandFailed command errors => "Command '" ++ command ++ "' failed: " ++ errors.text
  | unreadableVariable name cause => name ++ ": " ++ cause.message

/-- The wording of the failure behind this one, if there is one. -/
def source? : Failure → Option String
  | unreadableVariable _ cause => some cause.message
  | _ => none

/-- The server's errors, if a command failed. -/
def serverErrors? : Failure → Option ServerErrors
  | commandFailed _ errors => some errors
  | _ => none

/-- The failure to connect to an address. -/
def cannotConnect (address reason : String) : Failure :=
  connect ("cannot connect to " ++ address ++ ": " ++ reason)

/-- The failure to trust the fingerprint of an address. -/
def notTrusted (address : String) : Failure :=
  untrusted ("the fingerprint of " ++ address ++ " is not trusted")

/-- The failure to read a text as a revision specifier. -/
def unrecognisedSpecifier : Failure := argument "unrecognised revision specifier"

/-- The failure to configure a session without an address and without a directory. -/
def noAddress : Failure := argument "empty server address and no working directory"

end Failure

end DepotClient
