import Mathlib.Data.List.Forall2
import DepotClient.Proofs.Record.Family
import DepotClient.Proofs.Text.Fields
import DepotClient.Protection.Basic

/-! # Two forms of one protection table

A protection is written as a line of a table, or said by a record of its own. The two forms have
little in common: a line tells a group by a word and takes access away by a minus sign in front of
the path, a record tells both by keys, and some records use the sign as well. For protections that a
line can show (`Protection.Writable`) they agree:

* **`Protection.parse_text`** — a line gives the protection back;
* **`Protection.SaidBy.ofRecord_eq`** — so does a record, in whichever way it tells an exclusion;
* **`protectionTable_eq_map_ofRecord`** — so a table is read as the records of its entries are. -/

namespace DepotClient

namespace Spelled

/-- Every mode is read back from its spelling. -/
@[simp] theorem ofTag_tag_mode (mode : AccessMode) : (ofTag (tag mode) : AccessMode) = mode := by
  cases mode <;> decide

/-- Users and groups are read back from their spellings. -/
@[simp] theorem ofTag_tag_grantee (kind : Grantee) : (ofTag (tag kind) : Grantee) = kind := by
  cases kind <;> decide

end Spelled

namespace Protection

/-! ## What a line can show -/

/-- Holds of a text that is one sub-field without being put in quotes. -/
def Bare (text : String) : Prop :=
  text ≠ "" ∧ ' ' ∉ text.toList ∧ '\t' ∉ text.toList ∧ '"' ∉ text.toList

instance (text : String) : Decidable (Bare text) := by
  unfold Bare; infer_instance

/-- Holds of the protections that a line can show. The path may be empty. -/
structure Writable (p : Protection) : Prop where
  /-- The name is never put in quotes. -/
  bare_name : Bare p.name
  /-- The host is not put in quotes either. -/
  bare_host : Bare p.host
  /-- The path holds no quote. -/
  quote_not_mem_path : '"' ∉ p.path.toList
  /-- The path has no sign of its own. -/
  head?_path : p.path.toList.head? ≠ some '-'
  /-- A path is put in quotes for its spaces only, so a tab needs one beside it. -/
  space_or_no_tab : ' ' ∈ p.path.toList ∨ '\t' ∉ p.path.toList

theorem writable_iff (p : Protection) :
    p.Writable ↔ Bare p.name ∧ Bare p.host ∧ '"' ∉ p.path.toList ∧
      p.path.toList.head? ≠ some '-' ∧ (' ' ∈ p.path.toList ∨ '\t' ∉ p.path.toList) :=
  ⟨fun h => ⟨h.1, h.2, h.3, h.4, h.5⟩, fun h => ⟨h.1, h.2.1, h.2.2.1, h.2.2.2.1, h.2.2.2.2⟩⟩

instance (p : Protection) : Decidable p.Writable := decidable_of_iff' _ p.writable_iff

variable {p : Protection}

/-! ## The minus sign -/

/-- A sign put in front of a path that has none is taken off again. -/
theorem splitSign_sign {path : String} (h : path.toList.head? ≠ some '-') (signed : Bool) :
    splitSign ((if signed then "-" else "") ++ path) = (path, signed) := by
  cases signed with
  | true =>
    have htext : ("-" ++ path).toList = '-' :: path.toList := by
      rw [String.toList_append]
      rfl
    rw [if_pos rfl, splitSign, htext]
    simp only [String.ofList_toList]
  | false =>
    rw [if_neg Bool.false_ne_true, String.empty_append, splitSign]
    split
    · rename_i cs hpath
      rw [hpath] at h
      exact absurd rfl h
    · rfl

/-! ## Lines -/

/-- The sub-fields in the line of a protection. -/
def subFields (p : Protection) : List String :=
  [Spelled.tag p.mode, Spelled.tag p.kind, p.name, p.host, p.signedPath]

/-- A bare text is written as it is. -/
theorem Bare.quoted_eq {text : String} (h : Bare text) : Text.quoted text = text :=
  if_neg h.2.1

theorem Bare.whole {text : String} (h : Bare text) : Text.Whole text :=
  ⟨h.1, .inr h.2.2.1⟩

theorem bare_tag_mode (mode : AccessMode) : Bare (Spelled.tag mode) := by
  cases mode <;> decide

theorem bare_tag_kind (kind : Grantee) : Bare (Spelled.tag kind) := by
  cases kind <;> decide

/-- The line of a protection is that of its sub-fields: only the path is ever put in quotes. -/
theorem text_eq_written (h : p.Writable) : p.text = Text.written p.subFields := by
  simp only [text, Text.written, subFields, List.map_cons, List.map_nil,
    (bare_tag_mode p.mode).quoted_eq, (bare_tag_kind p.kind).quoted_eq, h.bare_name.quoted_eq,
    h.bare_host.quoted_eq]

/-- A sign changes neither the quotes nor the blanks of a path. -/
theorem toList_signedPath (p : Protection) :
    p.signedPath.toList = (if p.unmap then ['-'] else []) ++ p.path.toList := by
  rw [signedPath, String.toList_append]
  cases p.unmap <;> rfl

theorem quote_not_mem_signedPath (h : p.Writable) : '"' ∉ p.signedPath.toList := by
  rw [toList_signedPath]
  cases p.unmap <;> simp [h.quote_not_mem_path]

/-- A path with its sign is read back from a line, unless there is nothing of it. -/
theorem fields_quoted_signedPath (h : p.Writable) :
    Text.fields (Text.quoted p.signedPath) = if p.signedPath = "" then [] else [p.signedPath] := by
  by_cases hempty : p.signedPath = ""
  · rw [if_pos hempty, hempty]
    decide
  · have hwhole : Text.Whole p.signedPath := by
      refine ⟨hempty, ?_⟩
      rw [toList_signedPath]
      cases p.unmap <;> simpa using h.space_or_no_tab
    rw [if_neg hempty, Text.fields_quoted (quote_not_mem_signedPath h) hwhole]

/-- **A protection is read back from its line.** An empty path leaves no sub-field, and a missing one
is read as empty. -/
theorem parse_text (h : p.Writable) : parse p.text = p := by
  have hquote : ∀ x ∈ p.subFields, '"' ∉ x.toList := by
    simp only [subFields, List.forall_mem_cons]
    exact ⟨(bare_tag_mode p.mode).2.2.2, (bare_tag_kind p.kind).2.2.2, h.bare_name.2.2.2,
      h.bare_host.2.2.2, quote_not_mem_signedPath h, fun _ hx => nomatch hx⟩
  have hread : ∀ {x : String}, Bare x → Text.fields (Text.quoted x) = [x] := fun hx =>
    Text.fields_quoted hx.2.2.2 hx.whole
  have hfields : Text.fields p.text = [Spelled.tag p.mode, Spelled.tag p.kind, p.name, p.host] ++
      if p.signedPath = "" then [] else [p.signedPath] := by
    rw [text_eq_written h, Text.fields_written_eq_flatMap hquote]
    simp only [subFields, List.flatMap_cons, List.flatMap_nil, hread (bare_tag_mode p.mode),
      hread (bare_tag_kind p.kind), hread h.bare_name, hread h.bare_host,
      fields_quoted_signedPath h, List.append_nil, List.cons_append, List.nil_append]
  have hpath : (Text.fields p.text)[4]?.getD "" = p.signedPath := by
    rw [hfields]
    split <;> simp [*]
  rw [parse, ofFields, hpath, signedPath, splitSign_sign h.head?_path, hfields]
  simp

/-! ## Records -/

/-- Holds of a record of its own that says what a protection does. It takes access away by a key, by
a sign in front of the path, or by both. -/
structure SaidBy (p : Protection) (r : Record) : Prop where
  /-- The mode is spelled out. -/
  get?_perm : r.get? "perm" = some (Spelled.tag p.mode)
  /-- The name stands under one key, be it that of a user or of a group. -/
  get?_user : r.get? "user" = some p.name
  /-- The host stands under its key. -/
  get?_host : r.get? "host" = some p.host
  /-- A key tells groups from users. -/
  contains_isgroup : r.contains "isgroup" = true ↔ p.kind = .group
  /-- The path stands under its key, with or without a sign, which with a further key tells whether
  access is taken away. -/
  get?_depotFile : ∃ signed : Bool,
    r.get? "depotFile" = some ((if signed then "-" else "") ++ p.path) ∧
      (p.unmap = true ↔ r.contains "unmap" = true ∨ signed = true)

/-- **A protection is read from the record that says it.** -/
theorem SaidBy.ofRecord_eq {r : Record} (h : p.SaidBy r) (hpath : p.path.toList.head? ≠ some '-') :
    ofRecord r = p := by
  obtain ⟨signed, hdepotFile, hunmap⟩ := h.get?_depotFile
  have hsplit : splitSign (r.get "depotFile") = (p.path, signed) := by
    rw [Record.get, hdepotFile, Option.getD_some, splitSign_sign hpath]
  have hgroup : (if r.contains "isgroup" then Grantee.group else .user) = p.kind := by
    cases hkind : p.kind with
    | group => rw [if_pos (h.contains_isgroup.mpr hkind)]
    | user =>
      refine if_neg fun hcontains => ?_
      rw [h.contains_isgroup.mp hcontains] at hkind
      cases hkind
  have hmarked : (r.contains "unmap" || signed) = p.unmap := by
    rw [Bool.eq_iff_iff, Bool.or_eq_true]
    exact hunmap.symm
  rw [ofRecord, hsplit, hgroup, hmarked, h.get?_perm, Record.get, Record.get, h.get?_user,
    h.get?_host]
  simp

/-- Records that say protections one by one are read as these. -/
theorem map_ofRecord_eq {entries : List Protection} {records : List Record}
    (hentries : ∀ p ∈ entries, p.Writable) (h : List.Forall₂ SaidBy entries records) :
    records.map ofRecord = entries := by
  induction h with
  | nil => rfl
  | cons hfirst _ ih =>
    obtain ⟨hp, hps⟩ := List.forall_mem_cons.mp hentries
    rw [List.map_cons, hfirst.ofRecord_eq hp.head?_path, ih hps]

end Protection

/-! ## Tables -/

/-- The fields of a table with the given entries, one line for each. -/
def protectionFields (entries : List Protection) : List (String × String) :=
  familyFields "Protections" (entries.map fun p => some p.text)

/-- **A table of protections is read back**, and it is read as the records that say its entries are,
one by one. -/
theorem protectionTable_eq_map_ofRecord {entries : List Protection}
    (hentries : ∀ p ∈ entries, p.Writable) {fields others : List (String × String)}
    (hothers : ∀ field ∈ others, ∀ i, field.1 ≠ familyKey "Protections" i)
    (hfields : fields.Perm (protectionFields entries ++ others)) :
    protectionTable (Record.ofList fields) = entries ∧
      ∀ records : List Record, List.Forall₂ Protection.SaidBy entries records →
        protectionTable (Record.ofList fields) = records.map Protection.ofRecord := by
  have hlines : (Record.ofList fields).family "Protections" = entries.map Protection.text := by
    refine Record.family_ofList hothers ?_
    rw [List.map_map]
    exact hfields
  have hread : protectionTable (Record.ofList fields) = entries := by
    rw [protectionTable, hlines, List.map_map]
    calc entries.map (Protection.parse ∘ Protection.text)
        = entries.map id := List.map_congr_left fun p hp => Protection.parse_text (hentries p hp)
      _ = entries := List.map_id entries
  exact ⟨hread, fun records hsaid => by rw [hread, Protection.map_ofRecord_eq hentries hsaid]⟩

/-- Three ways to take access away, and an empty path with and without a sign, in a table that was
put in from its last line to its first. -/
theorem protectionTable_of_three_exclusions :
    let entries : List Protection :=
      [{ mode := .writeRight, kind := .group, name := "dev", host := "*", path := "//a b/\t...",
         unmap := true },
        { mode := .super, name := "user", host := "-" },
        { mode := .none, name := "=read", host := "10.0.0.0/8", path := "//secret/...",
          unmap := true },
        { mode := .list, kind := .group, name := "qa", host := "*", unmap := true }]
    let records : List Record :=
      [.ofList [("perm", "=write"), ("user", "dev"), ("host", "*"), ("isgroup", ""),
          ("depotFile", "//a b/\t..."), ("unmap", "")],
        .ofList [("perm", "super"), ("user", "user"), ("host", "-"), ("depotFile", "")],
        .ofList [("perm", "none"), ("user", "=read"), ("host", "10.0.0.0/8"),
          ("depotFile", "-//secret/...")],
        .ofList [("perm", "list"), ("user", "qa"), ("host", "*"), ("isgroup", "no"),
          ("depotFile", "-"), ("unmap", "")]]
    let table := Record.ofList
      (protectionFields entries ++ [("Protections", "4"), ("user", "super")]).reverse
    protectionTable table = entries ∧ protectionTable table = records.map Protection.ofRecord := by
  intro entries records table
  have hnames : ∀ field ∈ [("Protections", "4"), ("user", "super")], IsFieldName field.1 := by
    decide
  have hsaid : List.Forall₂ Protection.SaidBy entries records := by
    refine .cons ⟨?_, ?_, ?_, ?_, false, ?_, ?_⟩ (.cons ⟨?_, ?_, ?_, ?_, false, ?_, ?_⟩
      (.cons ⟨?_, ?_, ?_, ?_, true, ?_, ?_⟩ (.cons ⟨?_, ?_, ?_, ?_, true, ?_, ?_⟩ .nil)))
    all_goals simp [Record.ofList, Record.contains, Record.get?_insert]
    all_goals decide
  have hwritable : ∀ p ∈ entries, p.Writable := by decide
  obtain ⟨hread, hagree⟩ := protectionTable_eq_map_ofRecord hwritable
    (fun field hfield i => (familyKey_ne_of_isFieldName (hnames field hfield) _ i).symm)
    (List.reverse_perm _)
  exact ⟨hread, hagree records hsaid⟩

end DepotClient
