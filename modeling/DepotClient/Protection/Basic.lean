import DepotClient.Record.Family
import DepotClient.Text.Words

/-! # Protections

A protection gives a user or a group access to paths, or takes it away. Protections come in two
forms: one record each (`Protection.ofRecord`), or lines `mode type name host path` of a table
(`Protection.parse`, `protectionTable`), in which a minus sign before the path takes access away.
`Protection.text` writes such a line. -/

namespace DepotClient

/-! ## Modes and kinds -/

/-- The access that a protection is about. A mode for one right alone is spelled with an equals
sign; any other mode includes the weaker ones. -/
inductive AccessMode
  /-- Seeing names. -/
  | list
  /-- Reading files. -/
  | read
  /-- Opening files. -/
  | openFiles
  /-- Submitting files. -/
  | write
  /-- Administration. -/
  | admin
  /-- Ownership of a table. -/
  | owner
  /-- Everything. -/
  | super
  /-- Reviewing, for programs. -/
  | review
  /-- The right to read alone. -/
  | readRight
  /-- The right to branch alone. -/
  | branchRight
  /-- The right to open alone. -/
  | openRight
  /-- The right to submit alone. -/
  | writeRight
  /-- No access. -/
  | none
  /-- Reading stream definitions. -/
  | readStreamSpec
  /-- Opening stream definitions. -/
  | openStreamSpec
  /-- Submitting stream definitions. -/
  | writeStreamSpec
  /-- The right to read stream definitions alone. -/
  | readStreamSpecRight
  /-- The right to open stream definitions alone. -/
  | openStreamSpecRight
  /-- The right to submit stream definitions alone. -/
  | writeStreamSpecRight
deriving DecidableEq

instance : Inhabited AccessMode := ⟨.none⟩

instance : Spelled AccessMode where
  spellings :=
    [("list", .list), ("read", .read), ("open", .openFiles), ("write", .write), ("admin", .admin),
      ("owner", .owner), ("super", .super), ("review", .review), ("=read", .readRight),
      ("=branch", .branchRight), ("=open", .openRight), ("=write", .writeRight), ("none", .none),
      ("readstreamspec", .readStreamSpec), ("openstreamspec", .openStreamSpec),
      ("writestreamspec", .writeStreamSpec), ("=readstreamspec", .readStreamSpecRight),
      ("=openstreamspec", .openStreamSpecRight), ("=writestreamspec", .writeStreamSpecRight)]
  fallback := .none

/-- Whom a protection names. -/
inductive Grantee
  /-- A user. -/
  | user
  /-- A group of users. -/
  | group
deriving DecidableEq

instance : Inhabited Grantee := ⟨.user⟩

instance : Spelled Grantee where
  spellings := [("user", .user), ("group", .group)]
  fallback := .user

/-! ## Protections -/

/-- One protection. -/
structure Protection where
  /-- The access that it is about. -/
  mode : AccessMode := .none
  /-- Whom it names. -/
  kind : Grantee := .user
  /-- The name of the user or group. -/
  name : String := ""
  /-- The hosts from which it holds. -/
  host : String := ""
  /-- The paths that it covers. -/
  path : String := ""
  /-- It takes access away. -/
  unmap : Bool := false
deriving DecidableEq

namespace Protection

instance : Inhabited Protection := ⟨{}⟩

/-- A path with a minus sign before it taken apart: the path, and whether there was a sign. -/
def splitSign (path : String) : String × Bool :=
  match path.toList with
  | '-' :: cs => (String.ofList cs, true)
  | _ => (path, false)

/-- The protection in a record of its own. Access is taken away if a key says so or if the path
has a minus sign. -/
def ofRecord (r : Record) : Protection :=
  let path := splitSign (r.get "depotFile")
  { mode := ((r.get? "perm").map Spelled.ofTag).getD .none
    kind := if r.contains "isgroup" then .group else .user
    name := r.get "user"
    host := r.get "host"
    path := path.1
    unmap := r.contains "unmap" || path.2 }

/-- The protection with the given sub-fields. Missing ones stay empty. -/
def ofFields (fields : List String) : Protection :=
  let path := splitSign (fields[4]?.getD "")
  { mode := (fields[0]?.map Spelled.ofTag).getD .none
    kind := (fields[1]?.map Spelled.ofTag).getD .user
    name := fields[2]?.getD ""
    host := fields[3]?.getD ""
    path := path.1
    unmap := path.2 }

/-- Reads a line of a protection table. -/
def parse (line : String) : Protection := ofFields (Text.fields line)

/-- The path as it stands in a line, with a minus sign if access is taken away. -/
def signedPath (p : Protection) : String := (if p.unmap then "-" else "") ++ p.path

/-- The line of a protection in a table. -/
def text (p : Protection) : String :=
  String.intercalate " "
    [Spelled.tag p.mode, Spelled.tag p.kind, p.name, p.host, Text.quoted p.signedPath]

instance : ToString Protection := ⟨text⟩

end Protection

/-- The protections of the table in a record, in order. -/
def protectionTable (r : Record) : List Protection :=
  (r.family "Protections").map Protection.parse

end DepotClient
