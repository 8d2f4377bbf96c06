import DepotClient.Calendar.Layout
import DepotClient.Session.Failure

/-! # Revision specifiers

A `Specifier` says which revision of a file is meant: the newest one, the one in the workspace,
a number, the state at a time, and so on. `Specifier.text` writes it as it stands behind a path.

A range has two bounds. `Specifier.between` makes one and puts two revision numbers in ascending
order; bounds of any other kind stay as they are given.

`Specifier.parse?` reads one specifier. The rules are tried in this order, and the first one whose
sign occurs anywhere in the text decides:

1. the keywords `#head`, `#have` and `#none`, which must be the whole text;
2. behind the first `#`, a revision number or else the name of an action;
3. behind the first `@`, a time;
4. behind the first `@=`, the number of a shelved changelist;
5. behind the first `@`, the number of a changelist or else the name of a label.

`Specifier.readRange` reads two revision numbers with a comma between them and falls back to zero
where it finds none.

`Specifier.ofText` reads what stands behind a path, a range or a single specifier, and fails if it
is neither. `Specifier.cutPath` finds where a path ends and its specifier begins, and makes the same
choice between a range and a single specifier. -/

namespace DepotClient

/-- A revision specifier. -/
inductive Specifier
  /-- The latest revision. -/
  | head
  /-- The revision in the workspace. -/
  | synced
  /-- No revision. -/
  | noRevision
  /-- A revision number. -/
  | revision (number : Int32)
  /-- The state at a time. -/
  | date (time : Timestamp)
  /-- The state after a changelist. -/
  | changelist (number : Int32)
  /-- The content shelved in a changelist. -/
  | shelved (number : Int32)
  /-- The state that a label or a workspace holds. -/
  | label (name : String)
  /-- The revisions made by an action. -/
  | action (name : String)
  /-- Everything between two specifiers. -/
  | range (lower upper : Specifier)
deriving DecidableEq

namespace Specifier

instance : Inhabited Specifier := ⟨head⟩

/-! ## Text -/

/-- The characters of a specifier's text. -/
def chars : Specifier → List Char
  | head => "#head".toList
  | synced => "#have".toList
  | noRevision => "#none".toList
  | revision n => '#' :: Numeral.ofInteger n.toInt
  | date t => '@' :: Layout.specifier.write t
  | changelist n => '@' :: Numeral.ofInteger n.toInt
  | shelved n => '@' :: '=' :: Numeral.ofInteger n.toInt
  | label name => '@' :: name.toList
  | action name => '#' :: name.toList
  | range l u => l.chars ++ ',' :: u.chars

/-- The text of a specifier. -/
def text (spec : Specifier) : String := String.ofList spec.chars

instance : ToString Specifier := ⟨text⟩

@[simp] theorem toList_text (spec : Specifier) : spec.text.toList = spec.chars := by simp [text]

theorem chars_revision (n : Int32) :
    (revision n).chars = '#' :: Numeral.ofInteger n.toInt := rfl

theorem chars_range (l u : Specifier) : (range l u).chars = l.chars ++ ',' :: u.chars := rfl

/-! ## Ranges -/

/-- The range between two specifiers, with two revision numbers in ascending order. -/
def between (lower upper : Specifier) : Specifier :=
  match lower, upper with
  | revision l, revision u => if u < l then range (revision u) (revision l) else range lower upper
  | _, _ => range lower upper

/-- The range between two revision numbers. -/
def revisionsBetween (l u : Int32) : Specifier := between (revision l) (revision u)

/-- The two bounds of a range. -/
def bounds? : Specifier → Option (Specifier × Specifier)
  | range l u => some (l, u)
  | _ => none

@[simp] theorem bounds?_range (l u : Specifier) : (range l u).bounds? = some (l, u) := rfl

theorem revisionsBetween_of_le {l u : Int32} (h : l ≤ u) :
    revisionsBetween l u = range (revision l) (revision u) := by
  simp [revisionsBetween, between, Int32.not_lt.2 h]

theorem revisionsBetween_of_lt {l u : Int32} (h : u < l) :
    revisionsBetween l u = range (revision u) (revision l) := by
  simp [revisionsBetween, between, h]

/-! ## Reading single specifiers -/

/-- The text behind the first occurrence of a sign. -/
def behind? (sign : Char) : List Char → Option (List Char)
  | [] => none
  | c :: cs => if c = sign then some cs else behind? sign cs

/-- The text behind the first `@=`. -/
def behindShelfSign? : List Char → Option (List Char)
  | '@' :: '=' :: cs => some cs
  | _ :: cs => behindShelfSign? cs
  | [] => none

/-- A number if the text is a numeral, a name if it is any other text; an empty text is neither. -/
def numberOrName? (number : Int32 → Specifier) (name : String → Specifier) (cs : List Char) :
    Option Specifier :=
  match Numeral.int32? cs with
  | some n => some (number n)
  | none => if cs = [] then none else some (name (String.ofList cs))

/-- Reads a text without `#`, by what stands behind its first `@`. -/
def ofAt? (cs rest : List Char) : Option Specifier :=
  match Layout.specifier.read? rest with
  | some t => some (date t)
  | none =>
    match behindShelfSign? cs with
    | some number => (Numeral.int32? number).map shelved
    | none => numberOrName? changelist label rest

/-- Reads a specifier from its characters. -/
def ofChars? (cs : List Char) : Option Specifier :=
  if cs = "#head".toList then some head
  else if cs = "#have".toList then some synced
  else if cs = "#none".toList then some noRevision
  else
    match behind? '#' cs with
    | some rest => numberOrName? revision action rest
    | none => (behind? '@' cs).bind (ofAt? cs)

/-- Reads a specifier. -/
def parse? (spec : String) : Option Specifier := ofChars? spec.toList

/-! ## Reading ranges -/

/-- The revision number of one side of a range: a numeral behind one leading sign, zero if there
is none. -/
def rangeBound (side : List Char) : Int32 :=
  (Numeral.int32? ((Text.trim side).drop 1)).getD 0

/-- Reads a range of revision numbers from its characters. -/
def rangeOfChars (cs : List Char) : Specifier :=
  match Text.cut (· == ',') cs with
  | [l, u] => revisionsBetween (rangeBound l) (rangeBound u)
  | _ => revisionsBetween 0 0

/-- Reads a range of revision numbers; a text that is not two sides with a comma between them is
the range from zero to zero. -/
def readRange (spec : String) : Specifier := rangeOfChars spec.toList

/-! ## Specifiers behind paths -/

/-- Reads a range if the text has a comma, else a single specifier. -/
def ofText (spec : String) : Except Failure Specifier :=
  if ',' ∈ spec.toList then .ok (readRange spec)
  else match parse? spec with
    | some s => .ok s
    | none => .error .unrecognisedSpecifier

/-- The signs with which a specifier begins. -/
def isSign (c : Char) : Bool := c == '#' || c == '@'

/-- Cuts a path at its first sign: the path proper, and the specifier behind it if there is one
that can be read. -/
def cutPath (path : String) : String × Option Specifier :=
  match path.toList.dropWhile (!isSign ·) with
  | [] => (path, none)
  | sign :: rest =>
    let suffix := sign :: rest
    (String.ofList (path.toList.takeWhile (!isSign ·)),
      if ',' ∈ suffix then some (rangeOfChars suffix) else ofChars? suffix)

end Specifier

end DepotClient
