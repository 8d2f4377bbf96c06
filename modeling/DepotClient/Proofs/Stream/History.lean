import Mathlib.Data.List.Nodup
import DepotClient.Proofs.Record.Family
import DepotClient.Stream.History

/-! # A flattened history is put together again

A history is flattened into the fields of one record: those of entry `i` under keys with the index
`i`, those of its integration `j` under keys with the indices `i` and `j`. Both levels use the name
`stream`, and keys such as `change1`, `change11` and `stream1,1` differ only in where their indices
end; none of it makes two fields share a key (`keyText_inj`).

* **`HistoryEntry.flattenAll`** — the fields of a history;
* **`HistoryEntry.Holds`** — a record holds a history if the names of such fields, with any indices,
  find just these fields;
* **`HistoryEntry.Holds.decodeAll_eq`** — a record is decoded to the history that it holds;
* **`HistoryEntry.decodeAll_ofList_flattenAll`** — so a flattened history is decoded to itself, in
  whatever order its fields are put in, and with any other fields beside them. -/

namespace DepotClient

/-! ## Flattening -/

/-- The fields of an integration, by name. -/
def Integration.fields (g : Integration) : List (String × String) :=
  [("stream", g.stream), ("how", g.how), ("field", g.field),
    ("startFromChange", Numeral.text g.startFromChange.toInt),
    ("endFromChange", Numeral.text g.endFromChange.toInt)]

namespace Integration

theorem keyText_some (name : String) (outer inner : Nat) :
    keyText name outer (some inner) = name ++ suffix outer inner := by
  simp only [keyText, familyKey, innerFamilyName, suffix, String.append_assoc]

theorem map_fst_fields (g : Integration) : g.fields.map Prod.fst = schema.keys := rfl

/-- The values of an integration's fields make up the integration. -/
theorem foldl_fields (g a : Integration) :
    (schema.zip g.fields).foldl (fun a p => p.1.2 p.2.2 a) a = g := by
  simp [schema, fields]

end Integration

namespace HistoryEntry

/-- The fields of a history entry, by name. -/
def fields (l : HistoryEntry) : List (String × String) :=
  [("action", l.action), ("change", Numeral.text l.change.toInt), ("stream", l.stream),
    ("time", Numeral.text l.date.toInt), ("user", l.user), ("client", l.client),
    ("associatedChange", Numeral.text l.associatedChange.toInt), ("desc", l.description)]

theorem map_fst_fields (l : HistoryEntry) : l.fields.map Prod.fst = schema.keys := rfl

/-- The values of an entry's fields make up the entry, its integrations aside. -/
theorem foldl_fields (l a : HistoryEntry) :
    (schema.zip l.fields).foldl (fun a p => p.1.2 p.2.2 a) a =
      { l with integrations := a.integrations } := by
  simp [schema, fields]

/-- The fields of the entry with the given index, its integrations among them, by key. -/
def flatten (i : Nat) (l : HistoryEntry) : List (String × String) :=
  l.fields.map (fun field => (keyText field.1 i none, field.2)) ++
    (l.integrations.mapIdx fun j g =>
      g.fields.map fun field => (keyText field.1 i (some j), field.2)).flatten

/-- The fields of a whole history, by key. -/
def flattenAll (history : List HistoryEntry) : List (String × String) :=
  (history.mapIdx flatten).flatten

/-- The names under which the fields of a history stand. -/
def names : List String := schema.keys ++ Integration.schema.keys

/-- Holds if the key is one of these names followed by a digit. -/
def isHistoryKey (key : String) : Bool :=
  names.any fun name => name.toList.isPrefixOf key.toList &&
    (key.toList.drop name.toList.length).head?.any Char.isDigit

/-! ## Fields by their indices -/

/-- The fields with one index, which are those of an entry, or with two, which are those of an
integration; none if the history does not reach that far. -/
def fieldsAt (history : List HistoryEntry) (i : Nat) : Option Nat → List (String × String)
  | none => (history[i]?.map fields).getD []
  | some j => ((history[i]?.bind fun l => l.integrations[j]?).map Integration.fields).getD []

theorem fieldsAt_none {history : List HistoryEntry} {i : Nat} {l : HistoryEntry}
    (hl : history[i]? = some l) : fieldsAt history i none = l.fields := by
  rw [fieldsAt, hl, Option.map_some, Option.getD_some]

theorem fieldsAt_some {history : List HistoryEntry} {i j : Nat} {l : HistoryEntry}
    (hl : history[i]? = some l) (hj : j < l.integrations.length) :
    fieldsAt history i (some j) = l.integrations[j].fields := by
  rw [fieldsAt, hl, Option.bind_some, List.getElem?_eq_getElem hj, Option.map_some,
    Option.getD_some]

/-- Nothing stands behind the last entry. -/
theorem fieldsAt_length (history : List HistoryEntry) :
    fieldsAt history history.length none = [] := by
  rw [fieldsAt, List.getElem?_eq_none (Nat.le_refl _), Option.map_none, Option.getD_none]

/-- Nothing stands behind the last integration of an entry. -/
theorem fieldsAt_length_integrations {history : List HistoryEntry} {i : Nat} {l : HistoryEntry}
    (hl : history[i]? = some l) : fieldsAt history i (some l.integrations.length) = [] := by
  rw [fieldsAt, hl, Option.bind_some, List.getElem?_eq_none (Nat.le_refl _), Option.map_none,
    Option.getD_none]

/-- A flattened history has the fields that stand at some indices, and no others. -/
theorem mem_flattenAll {history : List HistoryEntry} {key value : String} :
    (key, value) ∈ flattenAll history ↔
      ∃ name i inner, key = keyText name i inner ∧ (name, value) ∈ fieldsAt history i inner := by
  constructor
  · intro h
    obtain ⟨part, hpart, hmem⟩ := List.mem_flatten.mp h
    obtain ⟨i, hi, rfl⟩ := List.mem_mapIdx.mp hpart
    have hl : history[i]? = some history[i] := List.getElem?_eq_getElem hi
    -- an entry's own fields come first, then those of its integrations
    obtain hown | hinner := List.mem_append.mp hmem
    · obtain ⟨⟨name, v⟩, hfield, heq⟩ := List.mem_map.mp hown
      obtain ⟨rfl, rfl⟩ := Prod.mk.inj heq
      exact ⟨name, i, none, rfl, by simpa [fieldsAt, hl] using hfield⟩
    · obtain ⟨part, hpart, hmem⟩ := List.mem_flatten.mp hinner
      obtain ⟨j, hj, rfl⟩ := List.mem_mapIdx.mp hpart
      obtain ⟨⟨name, v⟩, hfield, heq⟩ := List.mem_map.mp hmem
      obtain ⟨rfl, rfl⟩ := Prod.mk.inj heq
      exact ⟨name, i, some j, rfl, by simpa [fieldsAt, hl, hj] using hfield⟩
  · rintro ⟨name, i, inner, rfl, h⟩
    cases hl : history[i]? with
    | none => cases inner <;> simp [fieldsAt, hl] at h
    | some l =>
      obtain ⟨hi, rfl⟩ := List.getElem?_eq_some_iff.mp hl
      refine List.mem_flatten.mpr ⟨_, List.mem_mapIdx.mpr ⟨i, hi, rfl⟩, ?_⟩
      cases inner with
      | none =>
        rw [fieldsAt, hl] at h
        exact List.mem_append_left _ (List.mem_map.mpr ⟨_, h, rfl⟩)
      | some j =>
        cases hg : history[i].integrations[j]? with
        | none => simp [fieldsAt, hl, hg] at h
        | some g =>
          obtain ⟨hj, rfl⟩ := List.getElem?_eq_some_iff.mp hg
          rw [fieldsAt, hl, Option.bind_some, hg] at h
          exact List.mem_append_right _ (List.mem_flatten.mpr
            ⟨_, List.mem_mapIdx.mpr ⟨j, hj, rfl⟩, List.mem_map.mpr ⟨_, h, rfl⟩⟩)

/-- The keys of an entry with an integration. -/
example : (flatten 11 { integrations := [{}] }).map Prod.fst =
    ["action11", "change11", "stream11", "time11", "user11", "client11", "associatedChange11",
      "desc11", "stream11,0", "how11,0", "field11,0", "startFromChange11,0",
      "endFromChange11,0"] := by
  decide

/-- The fields at some indices have the names of a schema, each of them once. -/
theorem map_fst_fieldsAt (history : List HistoryEntry) (i : Nat) (inner : Option Nat) :
    ((fieldsAt history i inner).map Prod.fst).Nodup ∧
      ∀ field ∈ fieldsAt history i inner, field.1 ∈ names := by
  have hnodup : schema.keys.Nodup ∧ Integration.schema.keys.Nodup := by decide
  cases inner with
  | none =>
    cases hl : history[i]? with
    | none => simp [fieldsAt, hl]
    | some l =>
      simp only [fieldsAt, hl, Option.map_some, Option.getD_some]
      refine ⟨l.map_fst_fields ▸ hnodup.1, fun field hfield => List.mem_append_left _ ?_⟩
      exact l.map_fst_fields ▸ List.mem_map_of_mem hfield
  | some j =>
    cases hg : history[i]?.bind fun l => l.integrations[j]? with
    | none => simp [fieldsAt, hg]
    | some g =>
      simp only [fieldsAt, hg, Option.map_some, Option.getD_some]
      refine ⟨g.map_fst_fields ▸ hnodup.2, fun field hfield => List.mem_append_right _ ?_⟩
      exact g.map_fst_fields ▸ List.mem_map_of_mem hfield

theorem isFieldName_of_mem_names {name : String} (h : name ∈ names) : IsFieldName name := by
  have hall : ∀ name ∈ names, IsFieldName name := by decide
  exact hall name h

/-- Every key made of one of the names is a key of a history. -/
theorem isHistoryKey_keyText {name : String} (h : name ∈ names) (i : Nat) (inner : Option Nat) :
    isHistoryKey (keyText name i inner) = true := by
  obtain ⟨c, cs, hcs, hdigit⟩ := isDigit_head?_digits_append i (innerText inner)
  refine List.any_eq_true.mpr ⟨name, h, ?_⟩
  rw [toList_keyText, Bool.and_eq_true, List.drop_left, hcs]
  constructor
  · rw [List.isPrefixOf_iff_prefix]
    exact List.prefix_append _ _
  · exact hdigit

/-! ## Records that hold a history -/

/-- Holds if the names of the fields, with whatever indices, find what stands at these indices in
the history, and nothing if nothing stands there. -/
def Holds (r : Record) (history : List HistoryEntry) : Prop :=
  ∀ name ∈ names, ∀ i inner value,
    r.get? (keyText name i inner) = some value ↔ (name, value) ∈ fieldsAt history i inner

/-- **A record made of a flattened history holds it**, in whatever order the fields are put in and
whatever other fields there are. No two fields of the history meet under one key: the key tells
the indices and the name, and at these indices the name stands once. -/
theorem holds_ofList {history : List HistoryEntry} {fields others : List (String × String)}
    (hothers : ∀ field ∈ others, isHistoryKey field.1 = false)
    (hfields : fields.Perm (flattenAll history ++ others)) :
    Holds (Record.ofList fields) history := by
  intro name hname i inner value
  -- the fields put in under this key are those that the history has at these indices
  have hmem : ∀ v, (keyText name i inner, v) ∈ fields ↔
      (name, v) ∈ fieldsAt history i inner := by
    intro v
    rw [hfields.mem_iff, List.mem_append]
    constructor
    · rintro (hflat | hother)
      · obtain ⟨name', i', inner', hkey, h⟩ := mem_flattenAll.mp hflat
        have hname' : name' ∈ names := (map_fst_fieldsAt history i' inner').2 _ h
        obtain ⟨rfl, rfl, rfl⟩ := keyText_inj (isFieldName_of_mem_names hname)
          (isFieldName_of_mem_names hname') hkey
        exact h
      · have hkey := hothers _ hother
        rw [isHistoryKey_keyText hname] at hkey
        cases hkey
    · intro h
      exact .inl (mem_flattenAll.mpr ⟨name, i, inner, rfl, h⟩)
  constructor
  · intro hget
    exact (hmem value).mp (Record.mem_of_get?_ofList hget)
  · intro h
    refine Record.get?_ofList_of_mem ((hmem value).mpr h) fun v hv => ?_
    exact Record.value_eq_of_nodup (map_fst_fieldsAt history i inner).1 ((hmem v).mp hv) h

/-! ## Decoding -/

/-- A list is made up of what is decoded at its indices. -/
theorem map_range_length {α : Type} {xs : List α} {f : Nat → α}
    (h : ∀ i (hi : i < xs.length), f i = xs[i]) : (List.range xs.length).map f = xs := by
  refine List.ext_getElem (by simp) fun i _ hi => ?_
  rw [List.getElem_map, List.getElem_range]
  exact h i hi

variable {r : Record} {history : List HistoryEntry}

/-- What stands at some indices of the history is found there. -/
theorem Holds.get?_keyText (h : Holds r history) {i : Nat} {inner : Option Nat}
    {field : String × String} (hfield : field ∈ fieldsAt history i inner) :
    r.get? (keyText field.1 i inner) = some field.2 :=
  (h field.1 ((map_fst_fieldsAt history i inner).2 field hfield) i inner field.2).mpr hfield

/-- Where nothing stands in the history, no field of one of the names is found. -/
theorem Holds.get?_keyText_eq_none (h : Holds r history) {i : Nat} {inner : Option Nat}
    (hnone : fieldsAt history i inner = []) {name : String} (hname : name ∈ names) :
    r.get? (keyText name i inner) = none := by
  cases hget : r.get? (keyText name i inner) with
  | none => rfl
  | some value =>
    have hmem := (h name hname i inner value).mp hget
    rw [hnone] at hmem
    cases hmem

/-- An integration is decoded from the fields at its two indices. -/
theorem Holds.decode_integration (h : Holds r history) {i j : Nat} {g : Integration}
    (hg : fieldsAt history i (some j) = g.fields) : Integration.decode r i j = g := by
  have hget : ∀ field ∈ g.fields, r.get? (field.1 ++ Integration.suffix i j) = some field.2 := by
    intro field hfield
    rw [← Integration.keyText_some]
    exact h.get?_keyText (hg ▸ hfield)
  rw [Integration.decode, Schema.apply_eq_foldl_zip g.map_fst_fields hget,
    Integration.foldl_fields]

/-- The integrations of an entry end in the record where they end in the history. -/
theorem Holds.length_innerFamily (h : Holds r history) {i : Nat} {l : HistoryEntry}
    (hl : history[i]? = some l) :
    (r.innerFamily "stream" i).length = l.integrations.length := by
  refine Record.EndsAt.familyLength_eq ⟨fun j hj => ?_, ?_⟩
  · have hstream : ("stream", l.integrations[j].stream) ∈ fieldsAt history i (some j) := by
      rw [fieldsAt_some hl hj]
      exact List.mem_cons_self
    exact Option.isSome_of_eq_some (h.get?_keyText hstream)
  · -- behind the last integration is the gap that ends the family
    exact h.get?_keyText_eq_none (fieldsAt_length_integrations hl) (by decide)

/-- An entry is decoded from the fields at its index and those of its integrations. -/
theorem Holds.decode_eq (h : Holds r history) {i : Nat} {l : HistoryEntry}
    (hl : history[i]? = some l) : decode r i = l := by
  have hget : ∀ field ∈ l.fields, r.get? (field.1 ++ indexText i) = some field.2 := by
    intro field hfield
    have hown : field ∈ fieldsAt history i none := by
      rw [fieldsAt_none hl]
      exact hfield
    exact h.get?_keyText hown
  have hintegrations : (List.range l.integrations.length).map (Integration.decode r i) =
      l.integrations :=
    map_range_length fun j hj => h.decode_integration (fieldsAt_some hl hj)
  rw [decode, Schema.apply_eq_foldl_zip l.map_fst_fields hget, foldl_fields,
    h.length_innerFamily hl, hintegrations]

/-- The history ends in the record where it ends. -/
theorem Holds.familyLength_change (h : Holds r history) :
    r.familyLength "change" = history.length := by
  refine Record.EndsAt.familyLength_eq ⟨fun i hi => ?_, ?_⟩
  · have hchange : ("change", Numeral.text history[i].change.toInt) ∈ fieldsAt history i none := by
      rw [fieldsAt_none (List.getElem?_eq_getElem hi)]
      exact List.mem_cons_of_mem _ List.mem_cons_self
    exact Option.isSome_of_eq_some (h.get?_keyText hchange)
  · -- behind the last entry is the gap that ends the history
    exact h.get?_keyText_eq_none (fieldsAt_length history) (by decide)

/-- **A record is decoded to the history that it holds.** -/
theorem Holds.decodeAll_eq (h : Holds r history) : decodeAll r = history := by
  rw [decodeAll, h.familyLength_change]
  exact map_range_length fun i hi => h.decode_eq (List.getElem?_eq_getElem hi)

/-- **A flattened history is decoded to itself**, in whatever order its fields are put into the
record, and with any other fields beside them. -/
theorem decodeAll_ofList_flattenAll {fields others : List (String × String)}
    (hothers : ∀ field ∈ others, isHistoryKey field.1 = false)
    (hfields : fields.Perm (flattenAll history ++ others)) :
    decodeAll (Record.ofList fields) = history :=
  (holds_ofList hothers hfields).decodeAll_eq

/-- Two entries with integrations, put in from the last field to the first, with keys beside them
that only look like theirs. -/
theorem decodeAll_ofList_reverse_flattenAll :
    decodeAll (Record.ofList (flattenAll
        [{ action := "edit", change := 7, stream := "//depot/main",
           integrations := [{ stream := "//depot/dev", how := "merge from", startFromChange := -1 },
             { stream := "//depot/rel", endFromChange := 2147483647 }] },
          { change := -2147483648, user := "1,0", description := "change2",
            integrations := [{ how := "copy from" }] }] ++
        [("change", "8"), ("streams0", "//depot/x"), ("how,0", "edit")]).reverse) =
      [{ action := "edit", change := 7, stream := "//depot/main",
         integrations := [{ stream := "//depot/dev", how := "merge from", startFromChange := -1 },
           { stream := "//depot/rel", endFromChange := 2147483647 }] },
        { change := -2147483648, user := "1,0", description := "change2",
          integrations := [{ how := "copy from" }] }] :=
  decodeAll_ofList_flattenAll (by decide) (List.reverse_perm _)

end HistoryEntry

end DepotClient
