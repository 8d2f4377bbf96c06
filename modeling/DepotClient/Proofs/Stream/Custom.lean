import DepotClient.Proofs.Record.Schema
import DepotClient.Proofs.Stream.Declaration
import DepotClient.Stream.OfRecord

/-! # Custom fields of a stream

A form may declare fields that a stream does not know, and these are kept with their values. Several
declarations may have one name and different types: a type that ends in `list` asks for the family
of the name, any other for its text, and the record may have the one, the other, both or none. The
last declaration of a name that finds a value gives the field its value.

* **`Stream.Yields`** — the value that a record has for a name and a type;
* **`Stream.getElem?_customValuesOf`** — the custom fields of a record by the fields declared in it;
* **`Stream.customValues_of_description`** — and by the declarations that were written. -/

namespace DepotClient

/-- The last value that a list has is that of an element behind which there is none. -/
theorem findSomeRev?_eq_some_iff {α β : Type} {f : α → Option β} {xs : List α} {b : β} :
    xs.findSomeRev? f = some b ↔
      ∃ before a after, xs = before ++ a :: after ∧ f a = some b ∧ ∀ x ∈ after, f x = none := by
  rw [List.findSomeRev?_eq_findSome?_reverse, List.findSome?_eq_some_iff]
  constructor
  · rintro ⟨after, a, before, hxs, ha, hafter⟩
    refine ⟨before.reverse, a, after.reverse, ?_, ha, fun x hx => hafter x (List.mem_reverse.mp hx)⟩
    rw [← List.reverse_inj, hxs]
    simp
  · rintro ⟨before, a, after, rfl, ha, hafter⟩
    exact ⟨after.reverse, a, before.reverse, by simp, ha, fun x hx =>
      hafter x (List.mem_reverse.mp hx)⟩

namespace Stream

variable {r : Record} {name type : String}

/-! ## One declaration -/

theorem isReserved_eq_false_iff : isReserved name = false ↔
    name ∉ schema.keys ∧ name ∉ viewFields ∧ name ∉ otherFields := by
  simp only [isReserved, Bool.or_eq_false_iff, List.contains_eq_mem, decide_eq_false_iff_not,
    and_assoc]

/-- Relates a name and a type to the value that a record has for them. -/
inductive Yields (r : Record) (name type : String) : CustomValue → Prop
  /-- A type that ends in `list` takes the family, unless that is empty. -/
  | list {front : String} (list : type = front ++ "list") (nonempty : r.family name ≠ []) :
      Yields r name type (.list (r.family name))
  /-- Any other type takes the text, if there is one. -/
  | text {value : String} (single : ∀ front, type ≠ front ++ "list")
      (present : r.get? name = some value) : Yields r name type (.text value)

theorem isList_iff {d : FieldDeclaration} :
    d.isList = true ↔ ∃ front, d.type = front ++ "list" := by
  rw [FieldDeclaration.isList, List.isSuffixOf_iff_suffix]
  constructor
  · rintro ⟨front, hfront⟩
    refine ⟨String.ofList front, ?_⟩
    rw [← String.toList_inj, String.toList_append, ← hfront]
    exact congrArg (· ++ _) String.toList_ofList.symm
  · rintro ⟨front, hfront⟩
    exact ⟨front.toList, by rw [hfront, String.toList_append]⟩

theorem customValue?_eq_some_iff {d : FieldDeclaration} {value : CustomValue} :
    customValue? r d = some value ↔ Yields r d.name d.type value := by
  unfold customValue?
  constructor
  · intro h
    split at h
    · rename_i hlist
      obtain ⟨front, hfront⟩ := isList_iff.mp hlist
      cases hfamily : r.family d.name with
      | nil => rw [hfamily] at h; cases h
      | cons v vs =>
        rw [hfamily] at h
        rw [← Option.some.inj h, ← hfamily]
        exact .list hfront (by rw [hfamily]; exact List.cons_ne_nil _ _)
    · rename_i hlist
      obtain ⟨v, hv, rfl⟩ := Option.map_eq_some_iff.mp h
      exact .text (fun front hfront => hlist (isList_iff.mpr ⟨front, hfront⟩)) hv
  · rintro (⟨hfront, hne⟩ | ⟨hsingle, hv⟩)
    · rw [if_pos (isList_iff.mpr ⟨_, hfront⟩)]
      cases hfamily : r.family d.name with
      | nil => exact absurd hfamily hne
      | cons v vs => rfl
    · rw [if_neg, hv, Option.map_some]
      intro hlist
      obtain ⟨front, hfront⟩ := isList_iff.mp hlist
      exact hsingle front hfront

/-! ## One declaration after the other -/

/-- The value that a declaration gives to the custom field of a name, if it gives one. -/
def valueFor? (r : Record) (name : String) (d : FieldDeclaration) : Option CustomValue :=
  if d.name = name ∧ isReserved name = false then customValue? r d else none

theorem valueFor?_eq_some_iff {d : FieldDeclaration} {value : CustomValue} :
    valueFor? r name d = some value ↔
      isReserved name = false ∧ d.name = name ∧ Yields r name d.type value := by
  rw [valueFor?]
  by_cases h : d.name = name ∧ isReserved name = false
  · rw [if_pos h, customValue?_eq_some_iff, h.1]
    simp only [h.2, true_and]
  · rw [if_neg h]
    refine ⟨nofun, fun hvalue => ?_⟩
    exact absurd ⟨hvalue.2.1, hvalue.1⟩ h

/-- **A declaration replaces the value of its own name**, if it gives one, and no other. -/
theorem getElem?_addCustomValue (fields : Std.ExtTreeMap String CustomValue)
    (d : FieldDeclaration) :
    (addCustomValue r fields d)[name]? = ((valueFor? r name d).map some).getD fields[name]? := by
  unfold addCustomValue
  by_cases hname : d.name = name
  · subst hname
    cases hreserved : isReserved d.name with
    | true => simp [valueFor?, hreserved]
    | false => cases hvalue : customValue? r d <;> simp [valueFor?, hreserved, hvalue]
  · have hnone : valueFor? r name d = none := if_neg fun h => hname h.1
    have hother : ∀ value, (fields.insert d.name value)[name]? = fields[name]? := by
      intro value
      rw [Std.ExtTreeMap.getElem?_insert, if_neg]
      rwa [Std.compare_eq_iff_eq]
    rw [hnone]
    split
    · rfl
    · split
      · exact hother _
      · rfl

theorem valueFor?_eq_none_iff {d : FieldDeclaration} (h : isReserved name = false) :
    valueFor? r name d = none ↔ (d.name = name → ∀ value, ¬ Yields r name d.type value) := by
  rw [Option.eq_none_iff_forall_ne_some]
  constructor
  · intro hnone hname value hvalue
    exact hnone value (valueFor?_eq_some_iff.mpr ⟨h, hname, hvalue⟩)
  · intro hnone value hvalue
    obtain ⟨-, hname, hyields⟩ := valueFor?_eq_some_iff.mp hvalue
    exact hnone hname value hyields

/-- **The last declaration that finds a value counts.** -/
theorem getElem?_customValuesOf {text : String} (h : r.get? "specdef" = some text) :
    (customValuesOf r)[name]? =
      (FieldDeclaration.parseAll text).findSomeRev? (valueFor? r name) := by
  have hlast := @part_foldl _ _ _ (addCustomValue r) (fun fields => fields[name]?)
    (fun d => (valueFor? r name d).map some) getElem?_addCustomValue ∅
    (FieldDeclaration.parseAll text)
  rw [customValuesOf, h]
  change (List.foldl (addCustomValue r) ∅ (FieldDeclaration.parseAll text))[name]? = _
  rw [hlast, Std.ExtTreeMap.getElem?_empty, List.findSomeRev?_eq_findSome?_reverse,
    List.findSomeRev?_eq_findSome?_reverse]
  change (List.findSome? (Option.map some ∘ valueFor? r name) _).getD none = _
  rw [← List.map_findSome?]
  cases (FieldDeclaration.parseAll text).reverse.findSome? (valueFor? r name) <;> rfl

/-! ## Written declarations -/

/-- The custom fields of a record that holds the description of some declarations. -/
theorem getElem?_customValuesOf_description {ds : List FieldDeclaration.Written}
    (h : r.get? "specdef" = some (FieldDeclaration.description ds)) :
    (customValuesOf r)[name]? = ds.findSomeRev? fun d => valueFor? r name d.field := by
  rw [getElem?_customValuesOf h, FieldDeclaration.parseAll_description,
    List.findSomeRev?_eq_findSome?_reverse, ← List.map_reverse, List.findSome?_map,
    List.findSomeRev?_eq_findSome?_reverse]
  rfl

/-- **Custom fields are the declared unknown ones.** Whatever fields are declared,

* their declarations are read back from the description, in order, each with its name and its type;
* a stream whose record has the description has a custom field of some name just if that is the name
  of no known field and some declaration of it finds a value; the value is then that of the last
  declaration that finds one;
* a stream whose record has no description has none. -/
theorem customValues_of_description (ds : List FieldDeclaration.Written) :
    FieldDeclaration.parseAll (FieldDeclaration.description ds) =
      ds.map (fun d => ⟨d.name, FieldDeclaration.toldType d.attributes⟩) ∧
    ∀ (r : Record) (times : TimeNotation),
      (r.get? "specdef" = some (FieldDeclaration.description ds) → ∀ name value,
        (decode r times).customValues[name]? = some value ↔
          (name ∉ schema.keys ∧ name ∉ viewFields ∧ name ∉ ["Update", "Access", "specdef"]) ∧
          ∃ before d after, ds = before ++ d :: after ∧ d.name = name ∧
            Yields r name (FieldDeclaration.toldType d.attributes) value ∧
            ∀ e ∈ after, e.name = name →
              ∀ v, ¬ Yields r name (FieldDeclaration.toldType e.attributes) v) ∧
      (r.get? "specdef" = none → (decode r times).customValues = ∅) := by
  refine ⟨FieldDeclaration.parseAll_description ds, fun r times => ⟨fun hspec name value => ?_,
    fun hspec => ?_⟩⟩
  · change (customValuesOf r)[name]? = some value ↔ _
    rw [getElem?_customValuesOf_description hspec, findSomeRev?_eq_some_iff]
    constructor
    · rintro ⟨before, d, after, rfl, hd, hafter⟩
      obtain ⟨hreserved, hname, hyields⟩ := valueFor?_eq_some_iff.mp hd
      refine ⟨isReserved_eq_false_iff.mp hreserved, before, d, after, rfl, hname, hyields, ?_⟩
      exact fun e he => (valueFor?_eq_none_iff hreserved).mp (hafter e he)
    · rintro ⟨hknown, before, d, after, rfl, hname, hyields, hafter⟩
      have hreserved := isReserved_eq_false_iff.mpr hknown
      refine ⟨before, d, after, rfl, valueFor?_eq_some_iff.mpr ⟨hreserved, hname, hyields⟩, ?_⟩
      exact fun e he => (valueFor?_eq_none_iff hreserved).mpr (hafter e he)
  · change customValuesOf r = ∅
    rw [customValuesOf, hspec]

/-- A known field, and a field that is declared as a text and then as a list. -/
def riskFields : List FieldDeclaration.Written :=
  [⟨"Owner", ["code:703", "type:word"], by decide, by decide⟩,
    ⟨"Risk", ["code:950", "type:line"], by decide, by decide⟩,
    ⟨"Risk", ["type:llist", "type:word"], by decide, by decide⟩]

/-- A record with a text for the field, and with an element of a list that does not begin at its
first index. -/
def riskRecord : Record :=
  .ofList [("specdef", FieldDeclaration.description riskFields), ("Owner", "alice"),
    ("Risk", "high"), ("Risk1", "low")]

/-- The list is empty, so the text counts. -/
theorem customValues_of_text_before_list :
    riskRecord.get? "specdef" = some (FieldDeclaration.description riskFields) ∧
    (ofForm riskRecord).customValues["Risk"]? = some (.text "high") ∧
    (ofForm riskRecord).customValues["Owner"]? ≠ some (.text "alice") := by
  have hspec : riskRecord.get? "specdef" = some (FieldDeclaration.description riskFields) := by
    decide
  have hvalues := ((customValues_of_description riskFields).2 riskRecord .written).1 hspec
  refine ⟨hspec, (hvalues "Risk" _).mpr ⟨by decide, [_], _, [_], rfl, rfl, ?_, ?_⟩, ?_⟩
  · exact (customValue?_eq_some_iff (d := ⟨"Risk", "line"⟩)).mp (by decide)
  · rw [List.forall_mem_singleton]
    intro _ value hvalue
    have hnone : customValue? riskRecord ⟨"Risk", "llist"⟩ = none := by decide
    rw [(customValue?_eq_some_iff (d := ⟨"Risk", "llist"⟩)).mpr hvalue] at hnone
    cases hnone
  · intro howner
    exact ((hvalues "Owner" _).mp howner).1.1 (by decide)

end Stream

end DepotClient
