import DepotClient.Proofs.Calendar.Layout
import DepotClient.Proofs.View.Family
import DepotClient.Stream.OfRecord

/-! # Two sources of one stream

The command that lists streams gives their times in seconds, and the one that shows a form gives
them written out. If in a record of the list the seconds are replaced by the server times that they
stand for, the record can be read as that of a form. The two readings agree field by field:

* the two times, since a time is read back from its text; seconds that stand for no time give the
  text of `unset`;
* everything else, since no other field is read from one of the two keys. A key of a family ends
  with a digit, and a declared custom field of one of these names is not taken.

* **`Stream.ofListing_eq_ofForm`** — the reading of the list is that of the form. -/

namespace DepotClient

namespace Record

/-- The record with the value under a key, if there is one, replaced by what is made of it. -/
def mapValue (r : Record) (key : String) (f : String → String) : Record :=
  match r.get? key with
  | some value => r.insert key (f value)
  | none => r

/-- Other keys keep their values, and the key itself is still there or still missing. -/
theorem get?_mapValue (r : Record) (key : String) (f : String → String) (k : String) :
    (r.mapValue key f).get? k = if key = k then (r.get? k).map f else r.get? k := by
  unfold mapValue
  cases hget : r.get? key with
  | none =>
    by_cases hk : key = k
    · rw [if_pos hk, ← hk, hget]
      rfl
    · rw [if_neg hk]
  | some value =>
    by_cases hk : key = k
    · rw [if_pos hk, ← hk, hget, get?_insert_self]
      rfl
    · rw [if_neg hk]
      exact get?_insert_of_ne r (f value) hk

end Record

namespace Stream

/-- The keys of the two times of a stream. -/
def timeFields : List String := ["Update", "Access"]

/-- The record with the seconds under the keys of its times replaced by the server times that they
stand for, written out. -/
def writeTimes (r : Record) (offset : String) (daylightSaving : Bool) : Record :=
  timeFields.foldl
    (fun r key => r.mapValue key fun seconds =>
      (Timestamp.ofEpoch seconds offset daylightSaving).text) r

variable {r s : Record} {offset : String} {daylightSaving : Bool}

/-- The value under the key of a time is written out, if it is there. -/
theorem get?_writeTimes_of_mem {key : String} (h : key ∈ timeFields) :
    (writeTimes r offset daylightSaving).get? key =
      (r.get? key).map fun seconds => (Timestamp.ofEpoch seconds offset daylightSaving).text := by
  simp only [timeFields, List.mem_cons, List.not_mem_nil, or_false] at h
  obtain rfl | rfl := h <;> simp [writeTimes, timeFields, Record.get?_mapValue]

/-- What stands under any other key is left alone. -/
theorem get?_writeTimes_of_not_mem {key : String} (h : key ∉ timeFields) :
    (writeTimes r offset daylightSaving).get? key = r.get? key := by
  obtain ⟨hupdate, haccess⟩ : key ≠ "Update" ∧ key ≠ "Access" := by
    simpa [timeFields] using h
  simp [writeTimes, timeFields, Record.get?_mapValue, hupdate.symm, haccess.symm]

/-! ## What is read from other keys -/

/-- No key of a family is the key of a time. -/
theorem familyKey_not_mem_timeFields (name : String) (i : Nat) :
    familyKey name i ∉ timeFields := by
  have hnames : ∀ key ∈ timeFields, IsFieldName key := by decide
  intro h
  exact familyKey_ne_of_isFieldName (hnames _ h) name i rfl

/-- No custom field is read from the key of a time. -/
theorem not_mem_timeFields_of_isReserved {name : String} (h : isReserved name = false) :
    name ∉ timeFields := by
  have hall : ∀ key ∈ timeFields, isReserved key = true := by decide
  intro hname
  rw [hall name hname] at h
  cases h

/-- Custom fields are read from their declaration, from the keys of their own names where these are
not known ones, and from the families of these names. -/
theorem customValuesOf_congr (hspec : r.get? "specdef" = s.get? "specdef")
    (htext : ∀ name, isReserved name = false → r.get? name = s.get? name)
    (hlist : ∀ name, r.family name = s.family name) :
    customValuesOf r = customValuesOf s := by
  have hadd : addCustomValue r = addCustomValue s := by
    funext fields d
    cases hd : isReserved d.name with
    | true => simp only [addCustomValue, hd, if_true]
    | false => simp only [addCustomValue, customValue?, hlist, htext d.name hd]
  rw [customValuesOf, customValuesOf, hspec, hadd]

/-- **Reading a stream from a list is reading it from a form** in which the times of the list are
written out, whatever the texts of the seconds and of the offset are. -/
theorem ofListing_eq_ofForm (r : Record) (offset : String) (daylightSaving : Bool) :
    ofListing r offset daylightSaving = ofForm (writeTimes r offset daylightSaving) := by
  have hfamily : ∀ name i, r.get? (familyKey name i) =
      (writeTimes r offset daylightSaving).get? (familyKey name i) := fun name i =>
    (get?_writeTimes_of_not_mem (familyKey_not_mem_timeFields name i)).symm
  have hschema : schema.decode r = schema.decode (writeTimes r offset daylightSaving) := by
    refine Schema.apply_congr (fun key hkey => (get?_writeTimes_of_not_mem ?_).symm) _
    have hkeys : ∀ key ∈ schema.keys, key ++ "" ∉ timeFields := by decide
    exact hkeys key hkey
  have htime : ∀ key ∈ timeFields, timeOf r (.epoch offset daylightSaving) key =
      timeOf (writeTimes r offset daylightSaving) .written key := by
    intro key hkey
    rw [timeOf, timeOf, get?_writeTimes_of_mem hkey]
    -- seconds that stand for no time have become the text of the time that is not set
    cases r.get? key with
    | none => rfl
    | some seconds => simp [TimeNotation.decode]
  have hview : ∀ field, viewOf r field = viewOf (writeTimes r offset daylightSaving) field :=
    fun field => viewOf_congr (hfamily field) (hfamily (commentFamily field))
  have hcustom : customValuesOf r = customValuesOf (writeTimes r offset daylightSaving) :=
    customValuesOf_congr (get?_writeTimes_of_not_mem (by decide)).symm
      (fun name hname =>
        (get?_writeTimes_of_not_mem (not_mem_timeFields_of_isReserved hname)).symm)
      fun name => Record.family_congr (hfamily name)
  rw [ofListing, ofForm, decode, decode, hschema, htime "Update" (by decide),
    htime "Access" (by decide), hview "Components", hview "Paths", hview "Remapped",
    hview "Ignored", hview "View", hview "ChangeView", hcustom]

end Stream

end DepotClient
