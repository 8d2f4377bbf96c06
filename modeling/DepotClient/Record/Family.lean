import DepotClient.Record.Basic

/-! # Families of keys

A list inside a record is a *family*: its elements stand under the family's name followed by their
index, `Paths0`, `Paths1` and so on. A list of lists has two indices with a comma between them,
`stream0,0`, `stream0,1`, `stream1,0`. A family ends before its first missing index.

* **`Record.family`** — the values of a family in order;
* **`Record.innerFamily`** — the values of one inner family;
* **`FamilyScan`** — a family read one value at a time; past the end it stays at the end.

A record with `n` keys has no family of more than `n` values, which bounds the search. -/

namespace DepotClient

/-- The sign between the outer and the inner index of a key. -/
def indexSeparator : Char := ','

/-- The text of an index. -/
def indexText (i : Nat) : String := String.ofList (Numeral.digits i)

/-- The key of a family at an index. -/
def familyKey (name : String) (i : Nat) : String := name ++ indexText i

/-- The name of the family inside a family at an outer index. -/
def innerFamilyName (name : String) (outer : Nat) : String :=
  familyKey name outer ++ String.singleton indexSeparator

@[simp] theorem toList_indexText (i : Nat) : (indexText i).toList = Numeral.digits i := by
  simp [indexText]

@[simp] theorem indexText_inj {i j : Nat} : indexText i = indexText j ↔ i = j := by
  rw [← String.toList_inj, toList_indexText, toList_indexText, Numeral.digits_inj]

/-- A family has a key of its own for every index. -/
@[simp] theorem familyKey_inj {name : String} {i j : Nat} :
    familyKey name i = familyKey name j ↔ i = j := by
  rw [familyKey, familyKey, ← String.toList_inj, String.toList_append, String.toList_append,
    List.append_cancel_left_eq, String.toList_inj, indexText_inj]

namespace Record

/-- At most `bound` values of a family, from an index up to the first missing one. -/
def familyFrom (r : Record) (name : String) : (bound i : Nat) → List String
  | 0, _ => []
  | bound + 1, i =>
    match r.get? (familyKey name i) with
    | none => []
    | some value => value :: familyFrom r name bound (i + 1)

/-- The values of a family, in order, up to the first missing index. -/
def family (r : Record) (name : String) : List String := r.familyFrom name r.size 0

/-- The values of the inner family at an outer index. -/
def innerFamily (r : Record) (name : String) (outer : Nat) : List String :=
  r.family (innerFamilyName name outer)

/-- The length of a family. -/
def familyLength (r : Record) (name : String) : Nat := (r.family name).length

end Record

/-! ## One value at a time -/

/-- A position in the reading of a family. -/
structure FamilyScan where
  /-- The name of the family. -/
  name : String
  /-- The index to be read next. -/
  next : Nat
  /-- A missing index has been met. -/
  finished : Bool
deriving DecidableEq

namespace FamilyScan

/-- The position before the first value. -/
def start (name : String) : FamilyScan := ⟨name, 0, false⟩

/-- The next value, if there is one, and the position behind it. -/
def step (r : Record) (s : FamilyScan) : Option String × FamilyScan :=
  if s.finished then (none, s)
  else
    match r.get? (familyKey s.name s.next) with
    | some value => (some value, { s with next := s.next + 1 })
    | none => (none, { s with finished := true })

/-- What the given number of steps yield, one after the other. -/
def take (r : Record) : Nat → FamilyScan → List (Option String)
  | 0, _ => []
  | n + 1, s => (s.step r).1 :: take r n (s.step r).2

/-- Past the end the scan stays where it is. -/
@[simp] theorem step_of_finished (r : Record) {s : FamilyScan} (h : s.finished = true) :
    s.step r = (none, s) := by
  simp [step, h]

end FamilyScan

end DepotClient
