import DepotClient.Record.Family
import DepotClient.Text.Words

/-! # Views

A view is a list of lines, and a line maps one path to another. It has one of two shapes:

* a *mapping* `+//depot/... //client/...`, in which a sign before the left path tells how the line
  combines with those before it;
* a *stream path* `import lib/... //other/lib/...`, in which a keyword tells where the content of
  the left path comes from, and the right path may be missing.

`ViewLine.parse` reads a line of either shape and never fails; `ViewLine.text` writes an entry.

In a record a view field is a family of lines, `View0`, `View1` and so on, and the line at an index
may have a comment in the family named `ViewComment`. `viewOf` reads such a family; lines that are
empty and have no comment leave no entry. -/

namespace DepotClient

/-- What a line does to the paths that it names. -/
inductive LineKind
  /-- The paths are mapped. -/
  | includePath
  /-- The paths are taken out. -/
  | excludePath
  /-- The paths are laid over those mapped before. -/
  | overlay
  /-- The paths are mapped to a further place. -/
  | ditto
  /-- The content is shared with the parent. -/
  | share
  /-- The content belongs to this stream alone. -/
  | isolate
  /-- The content comes from elsewhere. -/
  | importPath
  /-- The content comes from elsewhere and can be changed here. -/
  | importPlus
deriving DecidableEq

namespace LineKind

instance : Inhabited LineKind := ⟨includePath⟩

instance : Spelled LineKind where
  spellings :=
    [("include", includePath), ("exclude", excludePath), ("overlay", overlay), ("ditto", ditto),
      ("share", share), ("isolate", isolate), ("import", importPath), ("import+", importPlus)]
  fallback := includePath

/-- What a sign before the left path means. -/
def ofSign? (c : Char) : Option LineKind :=
  if c = '-' then some excludePath
  else if c = '+' then some overlay
  else if c = '&' then some ditto
  else none

/-- The sign before the left path of a mapping. -/
def sign : LineKind → List Char
  | excludePath => ['-']
  | overlay => ['+']
  | ditto => ['&']
  | _ => []

/-- What the keyword of a stream path means. Keywords are spelled in lower case. -/
def ofKeyword? (word : String) : Option LineKind :=
  if word = "share" then some share
  else if word = "isolate" then some isolate
  else if word = "import" then some importPath
  else if word = "import+" then some importPlus
  else if word = "exclude" then some excludePath
  else none

end LineKind

/-- One line of a view. -/
structure ViewLine where
  /-- What the line does. -/
  kind : LineKind := .includePath
  /-- The line begins with a keyword, not with a sign. -/
  keyword : Bool := false
  /-- The left path. -/
  left : String := ""
  /-- The right path. -/
  right : Option String := none
  /-- The comment behind the line. -/
  comment : Option String := none
deriving DecidableEq

namespace ViewLine

instance : Inhabited ViewLine := ⟨{}⟩

/-! ## Reading -/

/-- The mapping with the given sub-fields: the sign, if there is one, is taken off the left one. -/
def ofMapping (left : String) (right : Option String) : ViewLine :=
  match left.toList with
  | [] => { left, right }
  | c :: cs =>
    match LineKind.ofSign? c with
    | some kind => { kind, left := String.ofList cs, right }
    | none => { left, right }

/-- The entry with the given sub-fields. A keyword counts only if a path follows it. -/
def ofFields : List String → ViewLine
  | [] => {}
  | [left] => ofMapping left none
  | first :: second :: rest =>
    match LineKind.ofKeyword? first with
    | some kind => { kind, keyword := true, left := second, right := rest.head? }
    | none => ofMapping first (some second)

/-- Reads a line. A line without a sub-field is the entry with an empty left path. -/
def parse (line : String) : ViewLine := ofFields (Text.fields line)

/-! ## Writing -/

/-- The left side of an entry: the keyword and the path, or the sign and the path together. -/
def leftText (e : ViewLine) : String :=
  if e.keyword then Spelled.tag e.kind ++ " " ++ Text.quoted e.left
  else Text.quoted (String.ofList e.kind.sign ++ e.left)

/-- The two paths of an entry as they stand in a line. -/
def pathsText (e : ViewLine) : String :=
  e.leftText ++ (match e.right with | some right => " " ++ Text.quoted right | none => "")

/-- The text of an entry, with its comment at the end. -/
def text (e : ViewLine) : String :=
  e.pathsText ++ (match e.comment with | some comment => " " ++ comment | none => "")

instance : ToString ViewLine := ⟨text⟩

end ViewLine

/-! ## Views in records -/

/-- The name of the family that holds the comments of a view. -/
def commentFamily (field : String) : String := field ++ "Comment"

/-- The entry of one line and its comment, if they leave one. Blanks at the end of the comment are
dropped. -/
def ViewLine.ofLine? (line : String) (comment : Option String) : Option ViewLine :=
  if line = "" ∧ comment = none then none
  else some { ViewLine.parse line with
    comment := comment.map fun c => String.ofList (Text.trimEnd c.toList) }

/-- The entries of the lines from an index on. -/
def viewFrom (r : Record) (field : String) : Nat → List String → List ViewLine
  | _, [] => []
  | i, line :: lines =>
    (ViewLine.ofLine? line (r.get? (familyKey (commentFamily field) i))).toList
      ++ viewFrom r field (i + 1) lines

/-- The entries of a view field, in order. -/
def viewOf (r : Record) (field : String) : List ViewLine :=
  viewFrom r field 0 (r.family field)

end DepotClient
