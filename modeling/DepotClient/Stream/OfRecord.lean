import DepotClient.Record.Schema
import DepotClient.Stream.Basic
import DepotClient.View.Basic

/-! # Streams in records

`Stream.decode` reads a stream from a record. Two commands give such records: the one that lists
streams writes times as seconds, and the one that shows a form writes them out. All else is the
same in both.

Custom fields are known only from the description of the form that stands in the same record
(`FieldDeclaration.parseAll`). -/

namespace DepotClient

/-! ## Declarations of form fields

A form describes its own fields in one text: a declaration for each field, with two semicolons
behind it. A declaration is a name and then attributes, with one semicolon between them; the
attribute that begins with `type:` tells the field's type. -/

/-- A declared field of a form. -/
structure FieldDeclaration where
  /-- The name of the field. -/
  name : String
  /-- Its type. -/
  type : String
deriving DecidableEq

namespace FieldDeclaration

/-- The type of a field that declares none. -/
def defaultType : String := "word"

/-- The pieces of a text between pairs of semicolons; pairs are found from the left. -/
def sections : List Char → List (List Char)
  | [] => [[]]
  | ';' :: ';' :: cs => [] :: sections cs
  | c :: cs => Text.consFirst c (sections cs)

/-- The text of an attribute behind the word that introduces a type. -/
def typeOfAttribute? : List Char → Option (List Char)
  | 't' :: 'y' :: 'p' :: 'e' :: ':' :: cs => some cs
  | _ => none

/-- The declaration in one piece of the text, if it has a name. -/
def ofPiece? (piece : List Char) : Option FieldDeclaration :=
  match Text.cut (· == ';') piece with
  | [] => none
  | name :: attributes =>
    if name = [] then none
    else some ⟨String.ofList name,
      ((attributes.findSome? typeOfAttribute?).map String.ofList).getD defaultType⟩

/-- The declarations in a form's description, in order. -/
def parseAll (description : String) : List FieldDeclaration :=
  (sections description.toList).filterMap ofPiece?

/-- Holds of the types whose values are lists. -/
def isList (d : FieldDeclaration) : Bool := "list".toList.isSuffixOf d.type.toList

end FieldDeclaration

namespace Stream

/-! ## Known fields -/

/-- The fields with one value. Where both keys of the description are present, the second wins. -/
def schema : Schema Stream :=
  [("Stream", fun v s => { s with id := v }),
    ("Owner", fun v s => { s with owner := v }),
    ("Name", fun v s => { s with name := v }),
    ("Parent", fun v s => { s with parent := v }),
    ("baseParent", fun v s => { s with baseParent := v }),
    ("Type", fun v s => { s with purpose := Spelled.ofTag v }),
    ("Description", fun v s => { s with description := v }),
    ("desc", fun v s => { s with description := v }),
    ("Options", fun v s => { s with flags := .parse v }),
    ("firmerThanParent", fun v s => { s with firmerThanParent := v }),
    ("changeFlowsToParent", fun v s => { s with changeFlowsToParent := v }),
    ("changeFlowsFromParent", fun v s => { s with changeFlowsFromParent := v }),
    ("ParentView", fun v s => { s with parentView := Spelled.ofTag v }),
    ("DepotPath", fun v s => { s with depotPath := v }),
    ("ViewPath", fun v s => { s with viewPath := v }),
    ("PathType", fun v s => { s with pathKind := Spelled.ofTag v }),
    ("PathSource", fun v s => { s with pathSource := v })]

/-- The names of the view fields. -/
def viewFields : List String :=
  ["Components", "Paths", "Remapped", "Ignored", "View", "ChangeView"]

/-- Further keys with a meaning of their own. -/
def otherFields : List String := ["Update", "Access", "specdef"]

/-- Holds of the names that are no custom fields, even where a form declares them. -/
def isReserved (name : String) : Bool :=
  schema.keys.contains name || viewFields.contains name || otherFields.contains name

/-! ## Custom fields -/

/-- The value of a declared field, if the record has one: a list for a type that is a list, as
long as it has an element, else a text. -/
def customValue? (r : Record) (d : FieldDeclaration) : Option CustomValue :=
  if d.isList then
    match r.family d.name with
    | [] => none
    | values => some (.list values)
  else (r.get? d.name).map .text

/-- The custom fields with the value of one more declaration, unless its name is a known one. -/
def addCustomValue (r : Record) (fields : Std.ExtTreeMap String CustomValue)
    (d : FieldDeclaration) : Std.ExtTreeMap String CustomValue :=
  if isReserved d.name then fields
  else match customValue? r d with
    | some value => fields.insert d.name value
    | none => fields

/-- The declared fields that are not known ones, by name; of several declarations of one name
that have a value the last counts. -/
def customValuesOf (r : Record) : Std.ExtTreeMap String CustomValue :=
  match r.get? "specdef" with
  | none => ∅
  | some description => (FieldDeclaration.parseAll description).foldl (addCustomValue r) ∅

/-! ## Whole streams -/

/-- The time under a key, `unset` if there is none. -/
def timeOf (r : Record) (times : TimeNotation) (key : String) : Timestamp :=
  ((r.get? key).map times.decode).getD .unset

/-- The stream that a record describes. -/
def decode (r : Record) (times : TimeNotation) : Stream :=
  { schema.decode r with
    updated := timeOf r times "Update"
    accessed := timeOf r times "Access"
    components := viewOf r "Components"
    paths := viewOf r "Paths"
    remapped := viewOf r "Remapped"
    ignored := viewOf r "Ignored"
    view := viewOf r "View"
    changeView := viewOf r "ChangeView"
    customValues := customValuesOf r }

/-- The stream in one record of the list of streams, whose times are seconds. -/
def ofListing (r : Record) (offset : String) (daylightSaving : Bool) : Stream :=
  decode r (.epoch offset daylightSaving)

/-- The stream in the record of a form, whose times are written out. -/
def ofForm (r : Record) : Stream := decode r .written

end Stream

end DepotClient
