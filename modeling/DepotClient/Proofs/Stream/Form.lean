import Mathlib.Data.List.Nodup
import DepotClient.Proofs.Calendar.Layout
import DepotClient.Proofs.View.Family
import DepotClient.Stream.OfRecord

/-! # Streams written as forms

A stream is written as a form by putting each of its fields under its key: a single value under the
key of its own, and each view into two families, one of its lines and one of the comments that stand
beside them. Seventeen keys, two times and twelve families share one record, and none of them gets
into the way of another.

* **`Stream.formFields`** — the fields of the form;
* **`Stream.WrittenIn`** — a record in which the stream stands, key by key;
* **`Stream.ofForm_ofList_eq_self_iff`** — the stream is read back from its form just if it has no
  custom fields and all entries of its views are printable. -/

namespace DepotClient

namespace Spelled

/-- Every purpose is read back from its spelling. -/
@[simp] theorem ofTag_tag_purpose (purpose : StreamPurpose) :
    (ofTag (tag purpose) : StreamPurpose) = purpose := by
  cases purpose <;> decide

/-- Every kind of line is read back from its spelling. -/
@[simp] theorem ofTag_tag_lineKind (kind : LineKind) : (ofTag (tag kind) : LineKind) = kind := by
  cases kind <;> decide

/-- Every relation to the parent is read back from its spelling. The unspecified one, which has
none, is what an empty value means. -/
@[simp] theorem ofTag_tag_inheritance (inheritance : ViewInheritance) :
    (ofTag (tag inheritance) : ViewInheritance) = inheritance := by
  cases inheritance <;> decide

end Spelled

namespace Stream

variable {s : Stream} {r : Record}

/-! ## The fields of a form -/

/-- What stands under each key of a single value. An unspecified relation to the parent is left out;
so are the second key of the description and the declaration of custom fields. -/
def singleValues (s : Stream) : List (String × Option String) :=
  [("Stream", some s.id),
    ("Owner", some s.owner),
    ("Name", some s.name),
    ("Parent", some s.parent),
    ("baseParent", some s.baseParent),
    ("Type", some (Spelled.tag s.purpose)),
    ("Description", some s.description),
    ("desc", none),
    ("Options", some s.flags.text),
    ("firmerThanParent", some s.firmerThanParent),
    ("changeFlowsToParent", some s.changeFlowsToParent),
    ("changeFlowsFromParent", some s.changeFlowsFromParent),
    ("ParentView", if s.parentView = .unspecified then none else some (Spelled.tag s.parentView)),
    ("DepotPath", some s.depotPath),
    ("ViewPath", some s.viewPath),
    ("PathType", some (Spelled.tag s.pathKind)),
    ("PathSource", some s.pathSource),
    ("Update", some s.updated.text),
    ("Access", some s.accessed.text),
    ("specdef", none)]

/-- The views, each under the name of its field. -/
def views (s : Stream) : List (String × List ViewLine) :=
  [("Components", s.components), ("Paths", s.paths), ("Remapped", s.remapped),
    ("Ignored", s.ignored), ("View", s.view), ("ChangeView", s.changeView)]

/-- The families of keys that hold the views: for each view the lines without their comments, and
the comments of the lines that have one. -/
def families (s : Stream) : List (String × List (Option String)) :=
  s.views.flatMap fun view =>
    [(view.1, view.2.map fun e => some e.bare.text),
      (commentFamily view.1, view.2.map ViewLine.comment)]

/-- The fields of the form of a stream. -/
def formFields (s : Stream) : List (String × String) :=
  (s.singleValues.flatMap fun single => single.2.toList.map fun value => (single.1, value)) ++
    s.families.flatMap fun family => familyFields family.1 family.2

/-! ## No key is used twice -/

/-- The keys of single values are those of the schema and the further ones with a meaning of their
own. -/
theorem keys_singleValues (s : Stream) :
    s.singleValues.map Prod.fst = schema.keys ++ otherFields := rfl

/-- The names of the families do not depend on the stream. -/
theorem keys_families (s : Stream) :
    s.families.map Prod.fst = viewFields.flatMap fun field => [field, commentFamily field] := rfl

theorem nodup_keys_singleValues (s : Stream) : (s.singleValues.map Prod.fst).Nodup := by
  rw [keys_singleValues]
  decide

theorem nodup_keys_families (s : Stream) : (s.families.map Prod.fst).Nodup := by
  rw [keys_families]
  decide

theorem isFieldName_of_mem_singleValues {single : String × Option String}
    (h : single ∈ s.singleValues) : IsFieldName single.1 := by
  have hall : ∀ key ∈ schema.keys ++ otherFields, IsFieldName key := by decide
  exact hall _ (s.keys_singleValues ▸ List.mem_map_of_mem h)

theorem isFieldName_of_mem_families {family : String × List (Option String)}
    (h : family ∈ s.families) : IsFieldName family.1 := by
  have hall : ∀ name ∈ viewFields.flatMap fun field => [field, commentFamily field],
      IsFieldName name := by decide
  exact hall _ (s.keys_families ▸ List.mem_map_of_mem h)

/-- Under the key of a single value stands nothing else. -/
theorem mem_formFields_of_mem_singleValues {single : String × Option String}
    (h : single ∈ s.singleValues) (value : String) :
    (single.1, value) ∈ s.formFields ↔ single.2 = some value := by
  rw [formFields, List.mem_append, List.mem_flatMap, List.mem_flatMap]
  constructor
  · rintro (⟨other, hother, hmem⟩ | ⟨family, -, hmem⟩)
    · -- two single values under one key are the same
      obtain ⟨v, hv, heq⟩ := List.mem_map.mp hmem
      obtain ⟨hkey, rfl⟩ := Prod.mk.inj heq
      have hsame : other = single :=
        List.inj_on_of_nodup_map s.nodup_keys_singleValues hother h hkey
      rw [← hsame]
      exact Option.mem_toList.mp hv
    · -- and no key of a family is the key of one
      obtain ⟨i, hkey, -⟩ := mem_familyFields.mp hmem
      exact absurd hkey (familyKey_ne_of_isFieldName (isFieldName_of_mem_singleValues h) _ i)
  · intro hvalue
    exact .inl ⟨single, h, by rw [hvalue]; exact List.mem_singleton_self _⟩

/-- Under a key of a family stands nothing else. -/
theorem mem_formFields_of_mem_families {family : String × List (Option String)}
    (h : family ∈ s.families) (i : Nat) (value : String) :
    (familyKey family.1 i, value) ∈ s.formFields ↔ family.2[i]? = some (some value) := by
  rw [formFields, List.mem_append, List.mem_flatMap, List.mem_flatMap]
  constructor
  · rintro (⟨single, hsingle, hmem⟩ | ⟨other, hother, hmem⟩)
    · -- the key of a single value has no index at its end
      obtain ⟨v, -, heq⟩ := List.mem_map.mp hmem
      have hkey := (Prod.mk.inj heq).1.symm
      exact absurd hkey (familyKey_ne_of_isFieldName (isFieldName_of_mem_singleValues hsingle) _ i)
    · -- a key tells the family that it belongs to, and the index
      obtain ⟨j, hkey, hvalue⟩ := mem_familyFields.mp hmem
      have hkeys : keyText other.1 j none = keyText family.1 i none := hkey
      obtain ⟨hname, rfl, -⟩ := keyText_inj (isFieldName_of_mem_families hother)
        (isFieldName_of_mem_families h) hkeys
      have hsame : other = family :=
        List.inj_on_of_nodup_map s.nodup_keys_families hother h hname
      rw [← hsame]
      exact hvalue
  · intro hvalue
    exact .inr ⟨family, h, mem_familyFields.mpr ⟨i, rfl, hvalue⟩⟩

/-! ## Reading the form -/

/-- A record in which a stream is written: every key that is looked up holds what the form holds
under it. -/
structure WrittenIn (s : Stream) (r : Record) : Prop where
  /-- The single values stand under their keys. -/
  get?_single : ∀ single ∈ s.singleValues, r.get? single.1 = single.2
  /-- The families stand under theirs, index by index. -/
  get?_family : ∀ family ∈ s.families, ∀ i, r.get? (familyKey family.1 i) = family.2[i]?.join

/-- In whatever order the fields of a form are put into a record, the stream is written in it. -/
theorem writtenIn_ofList {fields : List (String × String)} (h : fields.Perm s.formFields) :
    s.WrittenIn (Record.ofList fields) where
  get?_single single hsingle := by
    refine Record.get?_ofList_eq fun v => ?_
    rw [h.mem_iff, mem_formFields_of_mem_singleValues hsingle]
  get?_family family hfamily i := by
    refine Record.get?_ofList_eq fun v => ?_
    rw [h.mem_iff, mem_formFields_of_mem_families hfamily, Option.join_eq_some_iff]

/-- What is read from single values. -/
theorem WrittenIn.decode_schema (h : s.WrittenIn r) :
    schema.decode r = { s with
      updated := .unset, accessed := .unset, components := [], paths := [], remapped := [],
      ignored := [], view := [], changeView := [], customValues := ∅ } := by
  have hget := h.get?_single
  simp only [singleValues, List.forall_mem_cons] at hget
  obtain ⟨hid, howner, hname, hparent, hbase, hpurpose, hdescription, hdesc, hflags, hfirmer, hto,
    hfrom, hinherit, hdepot, hview, hkind, hsource, -⟩ := hget
  simp only [Schema.decode, schema, Schema.apply_cons, Schema.apply_nil, Schema.applyEntry,
    String.append_empty, hid, howner, hname, hparent, hbase, hpurpose, hdescription, hdesc, hflags,
    hfirmer, hto, hfrom, hinherit, hdepot, hview, hkind, hsource, Spelled.ofTag_tag_purpose,
    Spelled.ofTag_tag_lineKind, StreamFlags.parse_text]
  by_cases hunspecified : s.parentView = .unspecified
  · -- a relation to the parent that is left out is read as the unspecified one
    simp only [hunspecified, if_true]
    rfl
  · simp only [hunspecified, if_false, Spelled.ofTag_tag_inheritance]
    rfl

/-- A written time is read back. -/
theorem WrittenIn.timeOf_eq (h : s.WrittenIn r) {key : String} {time : Timestamp}
    (hmem : (key, some time.text) ∈ s.singleValues) : timeOf r .written key = time := by
  rw [timeOf, h.get?_single _ hmem]
  simp [TimeNotation.decode]

/-- Without a declaration there are no custom fields. -/
theorem WrittenIn.customValuesOf_eq (h : s.WrittenIn r) : customValuesOf r = ∅ := by
  have hspec : r.get? "specdef" = none :=
    h.get?_single ("specdef", none) (by simp [singleValues])
  rw [customValuesOf, hspec]

/-- A written view is read back just if all of its entries are printable. -/
theorem WrittenIn.viewOf_eq_iff (h : s.WrittenIn r) {view : String × List ViewLine}
    (hview : view ∈ s.views) : viewOf r view.1 = view.2 ↔ ∀ e ∈ view.2, e.Printable := by
  have hline : (view.1, view.2.map fun e => some e.bare.text) ∈ s.families :=
    List.mem_flatMap.mpr ⟨view, hview, by simp⟩
  have hcomment : (commentFamily view.1, view.2.map ViewLine.comment) ∈ s.families :=
    List.mem_flatMap.mpr ⟨view, hview, by simp⟩
  refine viewOf_eq_self_iff (fun i => ?_) fun i => ?_
  · rw [h.get?_family _ hline, List.getElem?_map]
    cases view.2[i]? <;> rfl
  · rw [h.get?_family _ hcomment, List.getElem?_map]
    cases view.2[i]? <;> rfl

/-- What is read from a record in which a stream is written: the stream, with its views as they are
read and without custom fields. -/
theorem WrittenIn.ofForm_eq (h : s.WrittenIn r) :
    ofForm r = { s with
      components := viewOf r "Components", paths := viewOf r "Paths",
      remapped := viewOf r "Remapped", ignored := viewOf r "Ignored", view := viewOf r "View",
      changeView := viewOf r "ChangeView", customValues := ∅ } := by
  have hupdated : timeOf r .written "Update" = s.updated := h.timeOf_eq (by simp [singleValues])
  have haccessed : timeOf r .written "Access" = s.accessed := h.timeOf_eq (by simp [singleValues])
  rw [ofForm, decode, h.decode_schema, h.customValuesOf_eq, hupdated, haccessed]

/-- **A stream is read back from its form**, in whatever order the fields are put into the record,
just if it has no custom fields and all entries of its views are printable. -/
theorem ofForm_ofList_eq_self_iff {fields : List (String × String)}
    (h : fields.Perm s.formFields) :
    ofForm (Record.ofList fields) = s ↔
      s.customValues = ∅ ∧ ∀ view ∈ s.views, ∀ e ∈ view.2, e.Printable := by
  have hwritten := writtenIn_ofList h
  have hviews : (∀ view ∈ s.views, viewOf (Record.ofList fields) view.1 = view.2) ↔
      ∀ view ∈ s.views, ∀ e ∈ view.2, e.Printable :=
    forall₂_congr fun view hview => hwritten.viewOf_eq_iff hview
  rw [hwritten.ofForm_eq, ← hviews]
  -- the two sides differ in the views and the custom fields at most
  obtain ⟨⟩ := s
  simp only [views, List.forall_mem_cons, Stream.mk.injEq, true_and,
    eq_comm (a := (∅ : Std.ExtTreeMap String CustomValue))]
  constructor
  · rintro ⟨hcomponents, hpaths, hremapped, hignored, hview, hchanges, hcustom⟩
    exact ⟨hcustom, hcomponents, hpaths, hremapped, hignored, hview, hchanges, fun _ h => nomatch h⟩
  · rintro ⟨hcustom, hcomponents, hpaths, hremapped, hignored, hview, hchanges, -⟩
    exact ⟨hcomponents, hpaths, hremapped, hignored, hview, hchanges, hcustom⟩

/-- A stream with no relation to its parent, a time in a leap second, and lines that look like
others: a path named like a keyword, a keyword as a path, a comment without a line. -/
theorem ofForm_reverse_formFields :
    let s : Stream :=
      { id := "//depot/main", description := "desc", purpose := .virtual, pathKind := .importPlus
        flags := { locked := true, mergeAny := true }
        updated := { date := .dayOne, hour := 23, minute := 59, second := 60 }
        paths :=
          [{ left := "share" }, { kind := .share, keyword := true, left := "a b/..." },
            { kind := .excludePath, left := "//depot/\t x", right := some "import+",
              comment := some "## kept" },
            { comment := some "nothing but a comment" },
            { kind := .importPlus, keyword := true, left := "-lib", right := some "//other/lib" }]
        changeView := [{ left := "//depot/main", right := some "@12", comment := some "" }] }
    ofForm (Record.ofList s.formFields.reverse) = s :=
  (ofForm_ofList_eq_self_iff (List.reverse_perm _)).mpr ⟨rfl, by decide⟩

end Stream

end DepotClient
