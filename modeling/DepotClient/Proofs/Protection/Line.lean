import DepotClient.Proofs.Protection.Table

/-! # Protections that were read from a line

Of the sub-fields in the line of a protection only the path is ever put in quotes. A name or a host
that stood in quotes can therefore fall apart when the line is written and read again, and one that
is empty leaves nothing behind, so that the sub-fields to its right move to the left. They can move
onto values that look like their own, but never onto all of them at once.

* **`Protection.fields_text`** — what is read from the line of any protection without quotes;
* **`columns_iff`** — when three sub-fields, of which only the last one is put in quotes, come back in
  their places;
* **`Protection.parse_text_iff_aligned`** — so a protection that was read from a line is read again from
  its own line just if it is `Aligned`. -/

namespace DepotClient

/-! ## Sub-fields in their places -/

open Text (Plain fields quoted)

/-- What is read from texts without quotes, of which only the last one is put in quotes if there is
need, is something, and holds no separator if the last text holds no space. -/
theorem plain_or_space_of_mem_columns {name host path field : String}
    (hname : '"' ∉ name.toList) (hhost : '"' ∉ host.toList) (hpath : '"' ∉ path.toList)
    (h : field ∈ fields name ++ (fields host ++ fields (quoted path))) :
    field ≠ "" ∧ (Plain field ∨ ' ' ∈ path.toList) := by
  rw [List.mem_append, List.mem_append] at h
  obtain h | h | h := h
  · exact (Text.plain_of_mem_fields hname h).imp_right .inl
  · exact (Text.plain_of_mem_fields hhost h).imp_right .inl
  · by_cases hspace : ' ' ∈ path.toList
    · exact ⟨(Text.whole_of_mem_fields_quoted hpath h).1, .inr hspace⟩
    · rw [quoted, if_neg hspace] at h
      exact (Text.plain_of_mem_fields hpath h).imp_right .inl

/-- What is read in front of the last text holds no separator. -/
theorem plain_of_mem_front {name host field : String} (hname : '"' ∉ name.toList)
    (hhost : '"' ∉ host.toList) (h : field ∈ fields name ++ fields host) : Plain field := by
  obtain h | h := List.mem_append.mp h
  · exact (Text.plain_of_mem_fields hname h).2
  · exact (Text.plain_of_mem_fields hhost h).2

/-- If the last text comes back in the third place, no separator stands in what is read in the first
two. Where the last text has a space it comes back whole, and nothing else of it does, so the first
two places are filled by the texts in front of it. -/
theorem plain_getD_columns {name host path : String} (hname : '"' ∉ name.toList)
    (hhost : '"' ∉ host.toList) (hpath : '"' ∉ path.toList)
    (h : (fields name ++ (fields host ++ fields (quoted path)))[2]?.getD "" = path) {i : Nat}
    (hi : i < 2) :
    Plain ((fields name ++ (fields host ++ fields (quoted path)))[i]?.getD "") := by
  by_cases hspace : ' ' ∈ path.toList
  · have hlast : fields (quoted path) = [path] := Text.fields_quoted_of_space hpath hspace
    rw [hlast, ← List.append_assoc] at h ⊢
    have hlength : 2 ≤ (fields name ++ fields host).length := by
      by_contra hshort
      have hnone : (fields name ++ fields host ++ [path])[2]? = none := by
        rw [List.getElem?_eq_none_iff, List.length_append, List.length_singleton]
        omega
      rw [hnone] at h
      rw [← h] at hspace
      cases hspace
    have hlt : i < (fields name ++ fields host).length := by omega
    rw [List.getElem?_append_left hlt, List.getElem?_eq_getElem hlt]
    exact plain_of_mem_front hname hhost (List.getElem_mem hlt)
  · cases hfield : (fields name ++ (fields host ++ fields (quoted path)))[i]? with
    | none => exact Text.plain_empty
    | some field =>
      have hmem := List.mem_of_getElem? hfield
      exact (plain_or_space_of_mem_columns hname hhost hpath hmem).2.resolve_right hspace

/-- **Three sub-fields come back in their places**, if only the last one is put in quotes, just if the
first two hold no separator, the last one has a space if it has a tab, and nothing stands behind an
empty one. -/
theorem columns_iff {name host path : String} (hname : '"' ∉ name.toList)
    (hhost : '"' ∉ host.toList) (hpath : '"' ∉ path.toList) :
    let columns := fields name ++ (fields host ++ fields (quoted path))
    (columns[0]?.getD "" = name ∧ columns[1]?.getD "" = host ∧ columns[2]?.getD "" = path) ↔
      Plain name ∧ Plain host ∧ (' ' ∈ path.toList ∨ '\t' ∉ path.toList) ∧
        (name = "" → host = "" ∧ path = "") ∧ (host = "" → path = "") := by
  intro columns
  -- every sub-field is something, so an empty place is one behind the last of them
  have hempty : ∀ i : Nat, columns[i]?.getD "" = "" → columns.length ≤ i := by
    intro i hi
    by_contra hlt
    rw [List.getElem?_eq_getElem (Nat.lt_of_not_le hlt), Option.getD_some] at hi
    exact (plain_or_space_of_mem_columns hname hhost hpath (List.getElem_mem _)).1 hi
  have hbehind : ∀ i : Nat, columns.length ≤ i → columns[i]?.getD "" = "" := by
    intro i hi
    rw [List.getElem?_eq_none hi, Option.getD_none]
  constructor
  · rintro ⟨h0, h1, h2⟩
    refine ⟨?_, ?_, ?_, ?_, ?_⟩
    · rw [← h0]
      exact plain_getD_columns hname hhost hpath h2 Nat.zero_lt_two
    · rw [← h1]
      exact plain_getD_columns hname hhost hpath h2 Nat.one_lt_two
    · cases hfield : columns[2]? with
      | none =>
        rw [hfield, Option.getD_none] at h2
        rw [← h2]
        exact .inr Text.plain_empty.2
      | some field =>
        rw [hfield, Option.getD_some] at h2
        rw [h2] at hfield
        obtain ⟨-, hplain | hspace⟩ :=
          plain_or_space_of_mem_columns hname hhost hpath (List.mem_of_getElem? hfield)
        · exact .inr hplain.2
        · exact .inl hspace
    · intro hnone
      have hlength := hempty 0 (h0.trans hnone)
      exact ⟨h1 ▸ hbehind 1 (by omega), h2 ▸ hbehind 2 (by omega)⟩
    · intro hnone
      have hlength := hempty 1 (h1.trans hnone)
      exact h2 ▸ hbehind 2 (by omega)
  · rintro ⟨hplainName, hplainHost, hwhole, hnameEmpty, hhostEmpty⟩
    have hlast : fields (quoted path) = if path = "" then [] else [path] := by
      by_cases hnone : path = ""
      · rw [if_pos hnone, hnone]
        decide
      · rw [if_neg hnone]
        exact Text.fields_quoted hpath ⟨hnone, hwhole⟩
    have hcolumns : columns = (if name = "" then [] else [name]) ++
        ((if host = "" then [] else [host]) ++ if path = "" then [] else [path]) := by
      rw [← Text.fields_of_plain hname hplainName, ← Text.fields_of_plain hhost hplainHost, ← hlast]
    rw [hcolumns]
    -- what is empty is followed by empty texts alone
    by_cases hn : name = ""
    · obtain ⟨rfl, rfl⟩ := hnameEmpty hn
      simp [hn]
    · by_cases hh : host = ""
      · obtain rfl := hhostEmpty hh
        simp [hn, hh]
      · by_cases hp : path = "" <;> simp [hn, hh, hp]

namespace Protection

/-! ## The line of a protection -/

/-- No quote stands in the texts of a protection. -/
structure Unquoted (p : Protection) : Prop where
  /-- None in the name. -/
  name : '"' ∉ p.name.toList
  /-- None in the host. -/
  host : '"' ∉ p.host.toList
  /-- None in the path. -/
  path : '"' ∉ p.signedPath.toList

/-- **What is read from the line of a protection**: its mode, its kind, and then what is read from its
name, its host and its path, which may be more or less than these three. -/
theorem fields_text {p : Protection} (h : p.Unquoted) :
    fields p.text = Spelled.tag p.mode :: Spelled.tag p.kind ::
      (fields p.name ++ (fields p.host ++ fields (quoted p.signedPath))) := by
  have hmode := bare_tag_mode p.mode
  have hkind := bare_tag_kind p.kind
  have hclosed : ∀ piece ∈
      [Spelled.tag p.mode, Spelled.tag p.kind, p.name, p.host, quoted p.signedPath],
      Text.openBehind false piece.toList = false := by
    simp only [List.forall_mem_cons]
    exact ⟨Text.openBehind_of_not_mem hmode.2.2.2 false, Text.openBehind_of_not_mem hkind.2.2.2 false,
      Text.openBehind_of_not_mem h.name false, Text.openBehind_of_not_mem h.host false,
      Text.openBehind_quoted h.path, List.forall_mem_nil _⟩
  have hread : ∀ {tag : String}, Bare tag → fields tag = [tag] := by
    intro tag htag
    rw [Text.fields_of_plain htag.2.2.2 ⟨htag.2.1, htag.2.2.1⟩, if_neg htag.1]
  rw [text, Text.fields_intercalate hclosed]
  simp only [List.flatMap_cons, List.flatMap_nil, hread hmode, hread hkind, List.append_nil,
    List.cons_append, List.nil_append]

/-! ## Protections from sub-fields -/

/-- A path is taken apart into sign and rest in one way only. -/
theorem splitSign_eq_iff {text path : String} {signed : Bool} :
    splitSign text = (path, signed) ↔
      text = (if signed then "-" else "") ++ path ∧
        (signed = false → path.toList.head? ≠ some '-') := by
  constructor
  · intro h
    unfold splitSign at h
    split at h
    · rename_i cs hcs
      obtain ⟨rfl, rfl⟩ := Prod.mk.inj h
      refine ⟨?_, fun hfalse => nomatch hfalse⟩
      rw [← String.toList_inj, if_pos rfl, hcs]
      simp
    · rename_i hnone
      obtain ⟨rfl, rfl⟩ := Prod.mk.inj h
      refine ⟨?_, fun _ hhead => ?_⟩
      · rw [if_neg Bool.false_ne_true, String.empty_append]
      · obtain ⟨cs, hcs⟩ := List.head?_eq_some_iff.mp hhead
        exact hnone cs hcs
  · rintro ⟨rfl, hhead⟩
    cases signed with
    | true =>
      rw [if_pos rfl, splitSign, String.toList_append]
      change (String.ofList path.toList, true) = (path, true)
      rw [String.ofList_toList]
    | false => exact splitSign_sign (hhead rfl) false

/-- Holds of a protection whose path has no sign of its own where none was taken off. -/
def Signed (p : Protection) : Prop := p.unmap = false → p.path.toList.head? ≠ some '-'

/-- **A protection is made up again from sub-fields** that begin with its mode and its kind, just if
its name, its host and its path stand in the next three places. -/
theorem ofFields_eq_iff {p : Protection} (h : p.Signed) (columns : List String) :
    ofFields (Spelled.tag p.mode :: Spelled.tag p.kind :: columns) = p ↔
      columns[0]?.getD "" = p.name ∧ columns[1]?.getD "" = p.host ∧
        columns[2]?.getD "" = p.signedPath := by
  have hpath : splitSign (columns[2]?.getD "") = (p.path, p.unmap) ↔
      columns[2]?.getD "" = p.signedPath := by
    rw [splitSign_eq_iff, signedPath]
    exact and_iff_left h
  rw [← hpath, Prod.ext_iff]
  obtain ⟨mode, kind, name, host, path, unmap⟩ := p
  simp [ofFields]

/-- What is made up from sub-fields has no sign left in front of its path, and no quote where they
have none. -/
theorem signed_unquoted_ofFields {xs : List String} (hquote : ∀ x ∈ xs, '"' ∉ x.toList) :
    (ofFields xs).Signed ∧ (ofFields xs).Unquoted := by
  obtain ⟨htext, hhead⟩ : xs[4]?.getD "" = (ofFields xs).signedPath ∧ (ofFields xs).Signed :=
    splitSign_eq_iff.mp rfl
  have hplace : ∀ i : Nat, '"' ∉ (xs[i]?.getD "").toList := by
    intro i
    cases hx : xs[i]? with
    | none => decide
    | some x => exact hquote x (List.mem_of_getElem? hx)
  refine ⟨hhead, hplace 2, hplace 3, ?_⟩
  rw [← htext]
  exact hplace 4

/-! ## Lines that were read -/

/-- Holds of a protection whose sub-fields come back in their places. -/
structure Aligned (p : Protection) : Prop where
  /-- The name is not put in quotes. -/
  plain_name : Plain p.name
  /-- The host is not put in quotes either. -/
  plain_host : Plain p.host
  /-- A path is put in quotes for its spaces only, so a tab needs one beside it. -/
  space_or_no_tab : ' ' ∈ p.signedPath.toList ∨ '\t' ∉ p.signedPath.toList
  /-- Nothing stands behind an empty name. -/
  of_name_eq_empty : p.name = "" → p.host = "" ∧ p.signedPath = ""
  /-- Nothing stands behind an empty host. -/
  of_host_eq_empty : p.host = "" → p.signedPath = ""

theorem aligned_iff (p : Protection) :
    p.Aligned ↔ Plain p.name ∧ Plain p.host ∧
      (' ' ∈ p.signedPath.toList ∨ '\t' ∉ p.signedPath.toList) ∧
      (p.name = "" → p.host = "" ∧ p.signedPath = "") ∧ (p.host = "" → p.signedPath = "") :=
  ⟨fun h => ⟨h.1, h.2, h.3, h.4, h.5⟩, fun h => ⟨h.1, h.2.1, h.2.2.1, h.2.2.2.1, h.2.2.2.2⟩⟩

instance (p : Protection) : Decidable p.Aligned := decidable_of_iff' _ p.aligned_iff

/-- **Which protections that were read are read again from their lines**: those whose name and host
hold neither space nor tab, whose path has a space if it has a tab, and in which nothing stands
behind an empty name or host. -/
theorem parse_text_iff_aligned (line : String) :
    parse (parse line).text = parse line ↔ (parse line).Aligned := by
  obtain ⟨hsigned, hquote⟩ : (parse line).Signed ∧ (parse line).Unquoted :=
    signed_unquoted_ofFields fun _ hx => Text.quote_not_mem_of_mem_fields hx
  have htext : parse (parse line).text = ofFields (Spelled.tag (parse line).mode ::
      Spelled.tag (parse line).kind :: (fields (parse line).name ++ (fields (parse line).host ++
        fields (quoted (parse line).signedPath)))) :=
    congrArg ofFields (fields_text hquote)
  rw [htext, ofFields_eq_iff hsigned, aligned_iff]
  exact columns_iff hquote.name hquote.host hquote.path

/-- Without its quotes an empty host leaves its place to the path. -/
example : parse (parse "read user qa \"\" //...").text =
    { mode := .read, name := "qa", host := "//..." } := by decide

end Protection

end DepotClient
