import Std.Data.ExtTreeMap
import DepotClient.Calendar.Layout
import DepotClient.Stream.Flags
import DepotClient.View.Basic

/-! # Streams

A stream is a branch with rules: where its content comes from, how it relates to a parent, and who
may change it. `Stream` holds what the server tells about one. -/

namespace DepotClient

/-- The purpose of a stream. -/
inductive StreamPurpose
  /-- Work in progress. -/
  | development
  /-- The root of a hierarchy. -/
  | mainline
  /-- What is released. -/
  | release
  /-- A view of another stream. -/
  | virtual
  /-- A small piece of work. -/
  | task
deriving DecidableEq

instance : Inhabited StreamPurpose := ⟨.development⟩

instance : Spelled StreamPurpose where
  spellings := [("development", .development), ("mainline", .mainline), ("release", .release),
    ("virtual", .virtual), ("task", .task)]
  fallback := .development

/-- How the view of a stream relates to that of its parent. -/
inductive ViewInheritance
  /-- The server does not say. -/
  | unspecified
  /-- The view is that of the parent, with changes. -/
  | inherit
  /-- The view stands on its own. -/
  | noInherit
deriving DecidableEq

instance : Inhabited ViewInheritance := ⟨.unspecified⟩

instance : Spelled ViewInheritance where
  spellings := [("inherit", .inherit), ("noinherit", .noInherit)]
  fallback := .unspecified

/-- The value of a field that a form declares and that is not known here. -/
inductive CustomValue
  /-- A single text. -/
  | text (value : String)
  /-- A list of texts. -/
  | list (values : List String)
deriving DecidableEq

/-- A stream. -/
structure Stream where
  /-- The path that identifies the stream. -/
  id : String := ""
  /-- When the definition was last changed. -/
  updated : Timestamp := .unset
  /-- When the definition was last read. -/
  accessed : Timestamp := .unset
  /-- Who owns the stream. -/
  owner : String := ""
  /-- A name for display. -/
  name : String := ""
  /-- The parent stream. -/
  parent : String := ""
  /-- The parent of a virtual stream's parent. -/
  baseParent : String := ""
  /-- The purpose. -/
  purpose : StreamPurpose := .development
  /-- A description for readers. -/
  description : String := ""
  /-- The choices that govern its use. -/
  flags : StreamFlags := {}
  /-- Whether the stream is firmer than its parent. -/
  firmerThanParent : String := ""
  /-- Whether changes flow to the parent. -/
  changeFlowsToParent : String := ""
  /-- Whether changes flow from the parent. -/
  changeFlowsFromParent : String := ""
  /-- How the view relates to that of the parent. -/
  parentView : ViewInheritance := .unspecified
  /-- A path in the depot. -/
  depotPath : String := ""
  /-- A path in the view. -/
  viewPath : String := ""
  /-- The type of that path. -/
  pathKind : LineKind := .includePath
  /-- Where that path comes from. -/
  pathSource : String := ""
  /-- Other streams that are parts of this one. -/
  components : List ViewLine := []
  /-- The content of the stream. -/
  paths : List ViewLine := []
  /-- Paths that appear elsewhere in a workspace. -/
  remapped : List ViewLine := []
  /-- Paths that are left alone. -/
  ignored : List ViewLine := []
  /-- The view that the server derives for workspaces. -/
  view : List ViewLine := []
  /-- The view as of changelists. -/
  changeView : List ViewLine := []
  /-- Further declared fields, by name. -/
  customValues : Std.ExtTreeMap String CustomValue := ∅
deriving DecidableEq

instance : Inhabited Stream := ⟨{}⟩

end DepotClient
