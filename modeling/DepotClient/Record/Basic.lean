import Std.Data.ExtTreeMap
import DepotClient.Text.Numeral

/-! # Records and their values

Every answer of the server is a list of records, and a `Record` is a finite map from keys to
values, both texts. The order in which a record was built never shows.

A value is text; what it is read as is a number, a flag or one of a list of spellings. Reading never
fails: a value that is no number is zero, one that is no flag is false, and one that is no known
spelling is the default of its kind. Blanks around a value are ignored, and the case of ASCII letters
does not matter for flags and spellings. -/

namespace DepotClient

/-- A finite map from keys to values. -/
structure Record where
  /-- The fields, by key. -/
  fields : Std.ExtTreeMap String String
deriving DecidableEq

namespace Record

/-- The record without a key. -/
def empty : Record := ⟨∅⟩

instance : EmptyCollection Record := ⟨empty⟩

instance : Inhabited Record := ⟨empty⟩

/-- The value under a key. -/
def get? (r : Record) (key : String) : Option String := r.fields[key]?

/-- Holds if the record has the key. -/
def contains (r : Record) (key : String) : Bool := (r.get? key).isSome

/-- The value under a key, empty if there is none. -/
def get (r : Record) (key : String) : String := (r.get? key).getD ""

/-- The record with a value put under a key. -/
def insert (r : Record) (key value : String) : Record := ⟨r.fields.insert key value⟩

/-- The number of keys. -/
def size (r : Record) : Nat := r.fields.size

/-- Holds if there is no key. -/
def isEmpty (r : Record) : Bool := r.size = 0

/-- The keys with their values, by ascending key. -/
def toList (r : Record) : List (String × String) := r.fields.toList

/-- The record with the given fields put in one after the other; of several values under one key
the last stays. -/
def ofList (fields : List (String × String)) : Record :=
  fields.foldl (fun r field => r.insert field.1 field.2) ∅

/-- The fields of both records, those of the second where both have one. -/
def merge (r s : Record) : Record :=
  s.toList.foldl (fun r field => r.insert field.1 field.2) r

/-! ## Look-up -/

theorem contains_eq_false_iff {r : Record} {key : String} :
    r.contains key = false ↔ r.get? key = none := by
  rw [contains, Option.isSome_eq_false_iff, Option.isNone_iff_eq_none]

@[simp] theorem get?_empty (key : String) : (∅ : Record).get? key = none :=
  Std.ExtTreeMap.getElem?_empty

theorem get?_insert (r : Record) (key value k : String) :
    (r.insert key value).get? k = if key = k then some value else r.get? k := by
  simp [get?, insert, Std.ExtTreeMap.getElem?_insert]

@[simp] theorem get?_insert_self (r : Record) (key value : String) :
    (r.insert key value).get? key = some value := by
  simp [get?_insert]

theorem get?_insert_of_ne (r : Record) {key k : String} (value : String) (h : key ≠ k) :
    (r.insert key value).get? k = r.get? k := by
  simp [get?_insert, h]

end Record

/-! ## Numbers and flags -/

/-- The 32-bit number of a value, zero if it is none. -/
def intValue (value : String) : Int32 := (Numeral.int32? (Text.trim value.toList)).getD 0

/-- A number is read back from its numeral, in which no blank stands. -/
@[simp] theorem intValue_text (n : Int32) : intValue (Numeral.text n.toInt) = n := by
  have hblank : ∀ c ∈ Numeral.ofInteger n.toInt, Text.isBlank c = false := fun c hc =>
    Numeral.isBlank_of_mem_ofInteger hc
  rw [intValue, Numeral.text, String.toList_ofList, Text.trim_eq_self hblank,
    Numeral.int32?_ofInteger, Option.getD_some]

/-- Digits are read as their number, if it fits. -/
theorem intValue_of_natural? {cs : List Char} {n : Nat} (h : Numeral.natural? cs = some n) :
    intValue (String.ofList cs) = (Numeral.fit32? n).getD 0 := by
  have hblank : ∀ c ∈ cs, Text.isBlank c = false := fun c hc =>
    Text.isBlank_of_isDigit ((Numeral.natural?_eq_some_iff.mp h).1.2 c hc)
  rw [intValue, String.toList_ofList, Text.trim_eq_self hblank, Numeral.int32?,
    Numeral.integer?_of_natural? h, Option.bind_some]

/-- The 64-bit number of a value, zero if it is none. -/
def longValue (value : String) : Int64 := (Numeral.int64? (Text.trim value.toList)).getD 0

/-- Holds of the two spellings that switch a flag on. -/
def flagValue (value : String) : Bool :=
  let cs := Text.trim value.toList
  Text.sameLetters cs "yes".toList || Text.sameLetters cs "enabled".toList

namespace Record

/-- The 32-bit number under a key, zero if there is none. -/
def int (r : Record) (key : String) : Int32 := ((r.get? key).map intValue).getD 0

/-- The 64-bit number under a key, zero if there is none. -/
def long (r : Record) (key : String) : Int64 := ((r.get? key).map longValue).getD 0

/-- Holds if the flag under a key is on. -/
def flag (r : Record) (key : String) : Bool := ((r.get? key).map flagValue).getD false

end Record

/-! ## Spellings -/

/-- A kind of value with a fixed list of spellings. -/
class Spelled (α : Type) where
  /-- The spellings, each with what it means. -/
  spellings : List (String × α)
  /-- What an unknown spelling means. -/
  fallback : α

namespace Spelled

variable {α : Type} [Spelled α]

/-- What a value means, if it is a known spelling. -/
def ofTag? (value : String) : Option α :=
  ((spellings (α := α)).find? fun s =>
    Text.sameLetters s.1.toList (Text.trim value.toList)).map Prod.snd

/-- What a value means, the default if its spelling is unknown. -/
def ofTag (value : String) : α := (ofTag? value).getD fallback

/-- The spelling of a meaning, empty if it has none. -/
def tag [DecidableEq α] (a : α) : String :=
  (((spellings (α := α)).find? fun s => s.2 = a).map Prod.fst).getD ""

end Spelled

end DepotClient
