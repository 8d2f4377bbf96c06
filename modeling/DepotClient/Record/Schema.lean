import DepotClient.Record.Basic

/-! # Schemas of records

What a record says about a thing is described by a `Schema`: a list of keys, each with the way in
which its value changes the thing. Applying a schema goes through it in order and skips the keys
that the record lacks, so that what they would set keeps its old value. A suffix behind all keys
selects one element of a family. -/

namespace DepotClient

/-- Keys, each with what its value does to a thing. -/
abbrev Schema (α : Type) := List (String × (String → α → α))

namespace Schema

variable {α : Type}

/-- The effect of one entry: that of its value if the record has its key, else none. -/
def applyEntry (r : Record) (suffix : String) (a : α) (entry : String × (String → α → α)) : α :=
  match r.get? (entry.1 ++ suffix) with
  | some value => entry.2 value a
  | none => a

/-- The thing after all entries of the schema, in order. -/
def apply (schema : Schema α) (r : Record) (suffix : String) (a : α) : α :=
  schema.foldl (applyEntry r suffix) a

/-- The number of entries whose key the record has. -/
def found (schema : Schema α) (r : Record) (suffix : String) : Nat :=
  schema.countP fun entry => r.contains (entry.1 ++ suffix)

/-- The thing that a record describes through a schema, where the rest keeps its default. -/
def decode [Inhabited α] (schema : Schema α) (r : Record) : α := schema.apply r "" default

/-- The keys of a schema. -/
def keys (schema : Schema α) : List String := schema.map Prod.fst

@[simp] theorem apply_nil (r : Record) (suffix : String) (a : α) :
    apply ([] : Schema α) r suffix a = a := rfl

@[simp] theorem apply_cons (entry : String × (String → α → α)) (schema : Schema α) (r : Record)
    (suffix : String) (a : α) :
    apply (entry :: schema) r suffix a = apply schema r suffix (applyEntry r suffix a entry) := rfl

theorem applyEntry_of_none {r : Record} {suffix : String} {entry : String × (String → α → α)}
    (h : r.get? (entry.1 ++ suffix) = none) (a : α) : applyEntry r suffix a entry = a := by
  simp [applyEntry, h]

theorem applyEntry_of_some {r : Record} {suffix value : String}
    {entry : String × (String → α → α)} (h : r.get? (entry.1 ++ suffix) = some value) (a : α) :
    applyEntry r suffix a entry = entry.2 value a := by
  simp [applyEntry, h]

/-- A schema sees nothing of a record but the values under its own keys. -/
theorem apply_congr {schema : Schema α} {r s : Record} {suffix : String}
    (h : ∀ key ∈ schema.keys, r.get? (key ++ suffix) = s.get? (key ++ suffix)) (a : α) :
    schema.apply r suffix a = schema.apply s suffix a := by
  induction schema generalizing a with
  | nil => rfl
  | cons entry schema ih =>
    have hentry : applyEntry r suffix a entry = applyEntry s suffix a entry := by
      rw [applyEntry, applyEntry, h entry.1 List.mem_cons_self]
    rw [apply_cons, apply_cons, hentry]
    exact ih (fun key hkey => h key (List.mem_cons_of_mem _ hkey)) _

/-- **A schema all of whose keys are there** has the effect of all its entries, each with the value
under its key. -/
theorem apply_eq_foldl_zip {schema : Schema α} {fields : List (String × String)} {r : Record}
    {suffix : String} (hkeys : fields.map Prod.fst = schema.keys)
    (h : ∀ field ∈ fields, r.get? (field.1 ++ suffix) = some field.2) (a : α) :
    schema.apply r suffix a = (schema.zip fields).foldl (fun a p => p.1.2 p.2.2 a) a := by
  induction schema generalizing fields a with
  | nil => rfl
  | cons entry schema ih =>
    cases fields with
    | nil => cases hkeys
    | cons field fields =>
      obtain ⟨hkey, hrest⟩ := List.cons.inj hkeys
      have hfield : r.get? (entry.1 ++ suffix) = some field.2 := by
        rw [← hkey]
        exact h field List.mem_cons_self
      rw [apply_cons, applyEntry_of_some hfield,
        ih hrest (fun f hf => h f (List.mem_cons_of_mem _ hf))]
      rfl

end Schema

end DepotClient
