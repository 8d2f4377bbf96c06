import DepotClient.Record.Schema

/-! # What one part of a thing takes from its records

A schema sets a thing entry by entry, and the value of one part of it comes from a few entries only.
`Schema.Reads` tells which: the *sources* of the part, each with the way in which it is read. Of
several sources in one record the first that is there counts, and of several records the last that
has a source at all. Nothing else in the records has an influence on the part.

* **`Schema.Reads.part_apply`** — the part after one record;
* **`part_foldl`**, **`Schema.getD_findSomeRev?_reading?`** — the part after a list of them. -/

namespace DepotClient

namespace Schema

variable {α β : Type}

/-- The value that a record gives to a part, from the first of its sources that is there. -/
def reading? (sources : List (String × (String → β))) (r : Record) : Option β :=
  sources.findSome? fun source => (r.get? source.1).map source.2

/-- A record gives a value to a part if it has one of the keys. -/
theorem isSome_reading? (sources : List (String × (String → β))) (r : Record) :
    (reading? sources r).isSome = (sources.map Prod.fst).any r.contains := by
  induction sources with
  | nil => rfl
  | cons source sources ih =>
    rw [reading?, List.findSome?_cons, List.map_cons, List.any_cons, ← ih, Record.contains]
    cases r.get? source.1 <;> rfl

/-- Relates a part of a thing to those entries of a schema that set it, in the order of the schema.
All other entries leave the part alone. -/
inductive Reads (part : α → β) : Schema α → List (String × (String → β)) → Prop
  /-- A schema without entries sets nothing. -/
  | nil : Reads part [] []
  /-- An entry that sets the part is a source of it. -/
  | own {key : String} {set : String → α → α} {read : String → β} {schema : Schema α}
    {sources : List (String × (String → β))} (h : ∀ value a, part (set value a) = read value) :
    Reads part schema sources → Reads part ((key, set) :: schema) ((key, read) :: sources)
  /-- An entry that leaves the part alone is none. -/
  | other {key : String} {set : String → α → α} {schema : Schema α}
    {sources : List (String × (String → β))} (h : ∀ value a, part (set value a) = part a) :
    Reads part schema sources → Reads part ((key, set) :: schema) sources

/-- **The part after one record** has the value of the last source of the schema that is there, else
it is as it was. -/
theorem Reads.part_apply {part : α → β} {schema : Schema α}
    {sources : List (String × (String → β))} (h : Reads part schema sources) (r : Record) (a : α) :
    part (schema.apply r "" a) = (reading? sources.reverse r).getD (part a) := by
  induction h generalizing a with
  | nil => rfl
  | @own key set read schema sources hset _ ih =>
    -- the entries behind this one count first
    rw [apply_cons, ih, reading?, reading?, List.reverse_cons, List.findSome?_append]
    cases sources.reverse.findSome? fun source => (r.get? source.1).map source.2 with
    | some value => rfl
    | none =>
      rw [Option.none_or, Option.getD_none, List.findSome?_singleton]
      cases hget : r.get? key with
      | none =>
        rw [applyEntry_of_none (by rwa [String.append_empty])]
        rfl
      | some value =>
        rw [applyEntry_of_some (by rwa [String.append_empty])]
        exact hset value a
  | @other key set schema sources hset _ ih =>
    rw [apply_cons, ih]
    congr 1
    cases hget : r.get? key with
    | none => rw [applyEntry_of_none (by rwa [String.append_empty])]
    | some value =>
      rw [applyEntry_of_some (by rwa [String.append_empty])]
      exact hset value a

end Schema

/-! ## One record after the other -/

namespace Record

/-- The last of some records that has one of the keys. -/
def lastHolder? (keys : List String) (records : List Record) : Option Record :=
  records.findRev? fun r => keys.any r.contains

end Record

variable {σ ι β : Type}

/-- **A part that each step may set** has in the end the value of the last step that set it. -/
theorem part_foldl {step : σ → ι → σ} {part : σ → β} {read : ι → Option β}
    (h : ∀ s i, part (step s i) = (read i).getD (part s)) (s : σ) (is : List ι) :
    part (is.foldl step s) = (is.findSomeRev? read).getD (part s) := by
  induction is generalizing s with
  | nil => rfl
  | cons i is ih =>
    rw [List.foldl_cons, ih, h, List.findSomeRev?]
    cases is.findSomeRev? read <;> rfl

/-- What is left out of a list sets nothing. -/
theorem findSomeRev?_filter {p : ι → Bool} {read : ι → Option β} (is : List ι) :
    (is.filter p).findSomeRev? read = is.findSomeRev? fun i => if p i then read i else none := by
  induction is with
  | nil => rfl
  | cons i is ih =>
    rw [List.filter_cons, List.findSomeRev?]
    cases hp : p i with
    | true => rw [if_pos rfl, List.findSomeRev?, ih, if_pos rfl]
    | false =>
      rw [if_neg Bool.false_ne_true, ih, if_neg Bool.false_ne_true]
      cases is.findSomeRev? fun i => if p i then read i else none <;> rfl

/-- The last value is that of the last element that has one. -/
theorem findSomeRev?_eq_bind_findRev? {p : ι → Bool} {read : ι → Option β}
    (h : ∀ i, (read i).isSome = p i) (is : List ι) :
    is.findSomeRev? read = (is.findRev? p).bind read := by
  rw [List.findSomeRev?_eq_findSome?_reverse, List.findRev?_eq_find?_reverse]
  induction is.reverse with
  | nil => rfl
  | cons i is ih =>
    rw [List.findSome?_cons, List.find?_cons, ← h i, ih]
    cases hread : read i with
    | none => rfl
    | some value => exact hread.symm

/-- The value that some records give to a part: that of the last record with one of its sources. -/
def Schema.lastReading {β : Type} (sources : List (String × (String → β))) (default : β)
    (records : List Record) : β :=
  ((Record.lastHolder? (sources.map Prod.fst) records).bind (reading? sources)).getD default

/-- A part without a source keeps its value. -/
theorem Schema.lastReading_nil {β : Type} (default : β) (records : List Record) :
    lastReading [] default records = default := by
  show ((Record.lastHolder? [] records).bind fun _ => none).getD default = default
  rw [Option.bind_fun_none, Option.getD_none]

theorem Schema.getD_findSomeRev?_reading? {β : Type} (sources : List (String × (String → β)))
    (default : β) (records : List Record) :
    (records.findSomeRev? (reading? sources)).getD default =
      lastReading sources default records := by
  rw [findSomeRev?_eq_bind_findRev? (isSome_reading? sources), lastReading, Record.lastHolder?]

end DepotClient
