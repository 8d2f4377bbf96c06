import DepotClient.Proofs.Stream.History

/-! # The entries of a history do not touch each other

All entries of a history stand in one record, told apart by the digits in their keys alone. What is
decoded at an index comes from the keys with that index as their first, and a field that is written
under another first index is none of these, whatever its name and its second index.

* **`HistoryEntry.SameEntry`** — two records have the same fields of an entry;
* **`HistoryEntry.SameEntry.decode_eq`** — the entry is then decoded to the same from both;
* **`HistoryEntry.sameEntry_insert`** — writing a field of one entry changes no other;
* **`HistoryEntry.decode_insert`** — so one field changes at most its own entry, and the length of
  the history only if it is a `change` that was not there before. -/

namespace DepotClient

/-- An integration is decoded from the fields at its two indices alone. -/
theorem Integration.decode_congr {r s : Record} {outer inner : Nat}
    (h : ∀ name ∈ schema.keys,
      r.get? (keyText name outer (some inner)) = s.get? (keyText name outer (some inner))) :
    decode r outer inner = decode s outer inner := by
  refine Schema.apply_congr (fun name hname => ?_) _
  rw [← keyText_some]
  exact h name hname

namespace HistoryEntry

variable {r s : Record} {i : Nat}

/-- Holds if two records have the same fields of the entry at an index, those of its integrations
among them. -/
def SameEntry (r s : Record) (i : Nat) : Prop :=
  ∀ name ∈ names, ∀ inner, r.get? (keyText name i inner) = s.get? (keyText name i inner)

/-- **An entry is decoded from its own fields alone.** -/
theorem SameEntry.decode_eq (h : SameEntry r s i) : decode r i = decode s i := by
  have hown : schema.apply r (indexText i) default = schema.apply s (indexText i) default :=
    Schema.apply_congr (fun name hname => h name (List.mem_append_left _ hname) none) _
  have hfamily : r.innerFamily "stream" i = s.innerFamily "stream" i :=
    Record.family_congr fun j => h "stream" (by decide) (some j)
  have hinner : Integration.decode r i = Integration.decode s i := by
    funext j
    exact Integration.decode_congr fun name hname =>
      h name (List.mem_append_right _ hname) (some j)
  rw [decode, decode, hown, hfamily, hinner]

/-- **Writing a field of one entry changes no other**, since its key differs from all of theirs in
the first index. -/
theorem sameEntry_insert (r : Record) {name : String} (hname : name ∈ names) {k : Nat}
    (inner : Option Nat) (value : String) (hik : i ≠ k) :
    SameEntry (r.insert (keyText name k inner) value) r i := by
  intro name' hname' inner'
  refine Record.get?_insert_of_ne r value fun hkey => hik ?_
  obtain ⟨-, hindex, -⟩ :=
    keyText_inj (isFieldName_of_mem_names hname) (isFieldName_of_mem_names hname') hkey
  exact hindex.symm

/-! ## The whole history -/

theorem length_decodeAll (r : Record) : (decodeAll r).length = r.familyLength "change" := by
  rw [decodeAll, List.length_map, List.length_range]

theorem getElem?_decodeAll (r : Record) (p : Nat) :
    (decodeAll r)[p]? = if p < r.familyLength "change" then some (decode r p) else none := by
  rw [decodeAll, List.getElem?_map]
  split
  · rename_i hp
    rw [List.getElem?_range hp, Option.map_some]
  · rename_i hp
    rw [List.getElem?_eq_none (by simpa using hp), Option.map_none]

/-- A field that is written leaves the length of the history alone, unless it is a `change` that was
not there before. -/
theorem familyLength_change_insert {name : String} (hname : name ∈ names) {k : Nat}
    {inner : Option Nat} (value : String)
    (h : ¬ (keyText name k inner = familyKey "change" k ∧
      r.contains (keyText name k inner) = false)) :
    (r.insert (keyText name k inner) value).familyLength "change" = r.familyLength "change" := by
  refine Record.familyLength_insert value ?_
  cases hcontains : r.contains (keyText name k inner) with
  | true => exact .inl rfl
  | false =>
    right
    intro i hkey
    -- a key of the family is the key of a `change`, and its index can only be `k`
    have hkeys : keyText name k inner = keyText "change" i none := hkey
    obtain ⟨rfl, rfl, rfl⟩ := keyText_inj (isFieldName_of_mem_names hname) (by decide) hkeys
    exact h ⟨rfl, hcontains⟩

/-- **One field that is written changes at most its own entry**: all other entries are decoded as
before, and the history keeps its length and its other elements unless the field is a `change` that
was not there before. -/
theorem decode_insert (r : Record) {name : String} (hname : name ∈ names) (k : Nat)
    (inner : Option Nat) (value : String) :
    (∀ i, i ≠ k → decode (r.insert (keyText name k inner) value) i = decode r i) ∧
    (¬ (keyText name k inner = familyKey "change" k ∧
        r.contains (keyText name k inner) = false) →
      (decodeAll (r.insert (keyText name k inner) value)).length = (decodeAll r).length ∧
      ∀ p, p ≠ k →
        (decodeAll (r.insert (keyText name k inner) value))[p]? = (decodeAll r)[p]?) := by
  have hother : ∀ i, i ≠ k → decode (r.insert (keyText name k inner) value) i = decode r i :=
    fun i hik => (sameEntry_insert r hname inner value hik).decode_eq
  refine ⟨hother, fun hchange => ?_⟩
  have hlength := familyLength_change_insert hname value hchange
  constructor
  · rw [length_decodeAll, length_decodeAll, hlength]
  · intro p hpk
    rw [getElem?_decodeAll, getElem?_decodeAll, hlength, hother p hpk]

/-- A history of two entries, with fields of an entry 11 behind its end. -/
def twoEntries : Record :=
  .ofList [("change0", "7"), ("change1", "9"), ("stream1", "//depot/main"),
    ("stream1,0", "//depot/dev"), ("stream11", "//depot/rel"), ("stream11,0", "//depot/x")]

/-- A second integration is written into entry 1, and shows there but not in the entries 0 and
11. -/
theorem decode_insert_second_integration :
    ("stream" ∈ names ∧ 11 ≠ 1 ∧ 0 ≠ 1 ∧ ¬ (keyText "stream" 1 (some 1) = familyKey "change" 1 ∧
      twoEntries.contains (keyText "stream" 1 (some 1)) = false)) ∧
    decode (twoEntries.insert (keyText "stream" 1 (some 1)) "//depot/rel") 11 =
      decode twoEntries 11 ∧
    (decodeAll (twoEntries.insert (keyText "stream" 1 (some 1)) "//depot/rel")).length =
      (decodeAll twoEntries).length ∧
    (decodeAll (twoEntries.insert (keyText "stream" 1 (some 1)) "//depot/rel"))[0]? =
      (decodeAll twoEntries)[0]? ∧
    (decodeAll (twoEntries.insert (keyText "stream" 1 (some 1)) "//depot/rel"))[1]? ≠
      (decodeAll twoEntries)[1]? := by
  have hname : "stream" ∈ names := by decide
  have hchange : ¬ (keyText "stream" 1 (some 1) = familyKey "change" 1 ∧
      twoEntries.contains (keyText "stream" 1 (some 1)) = false) := by decide
  obtain ⟨hother, hhistory⟩ := decode_insert twoEntries hname 1 (some 1) "//depot/rel"
  obtain ⟨hlength, helements⟩ := hhistory hchange
  exact ⟨⟨hname, by decide, by decide, hchange⟩, hother 11 (by decide), hlength,
    helements 0 (by decide), by decide⟩

end HistoryEntry

end DepotClient
