import DepotClient.Proofs.Text.Fields
import DepotClient.View.Basic

/-! # Lines of a view that survive being written

An entry of a view is written as the line of its sub-fields. It is read back from it if two things
are so: the sub-fields are read back from the line, and the first of them tells the kind of the
entry. The second is `ViewLine.Shaped`: a keyword in front tells its kind, a sign its own, and what
has neither must not look as if it had.

* **`ViewLine.ofFields_subFields`** — sub-fields of such a shape make up their entry;
* **`ViewLine.shaped_ofFields`** — whatever is read from sub-fields has such a shape, and these are
  the first of them;
* **`ViewLine.parse_text_bare_iff`** — so a line gives back just the entries of such a shape whose
  sub-fields are whole, and the empty entry;
* **`ViewLine.parse_text_parse_iff`** — an entry that was itself read from a line has such a shape,
  so only its paths matter. -/

namespace DepotClient

/-! ## What tells the kind of an entry -/

namespace LineKind

/-- The keywords in front of a stream path. -/
def keywords : List String := ["share", "isolate", "import", "import+", "exclude"]

/-- The kinds that a keyword tells. -/
def keywordKinds : List LineKind := [share, isolate, importPath, importPlus, excludePath]

/-- The signs in front of a mapping. -/
def signs : List Char := ['-', '+', '&']

/-- The kinds that a sign tells, or that there is none. -/
def mappingKinds : List LineKind := [includePath, excludePath, overlay, ditto]

/-- A keyword is the spelling of its kind. -/
theorem ofKeyword?_eq_some_iff {word : String} {kind : LineKind} :
    ofKeyword? word = some kind ↔ kind ∈ keywordKinds ∧ Spelled.tag kind = word := by
  constructor
  · intro h
    unfold ofKeyword? at h
    split at h
    · rename_i hword; cases h; rw [hword]; decide
    split at h
    · rename_i hword; cases h; rw [hword]; decide
    split at h
    · rename_i hword; cases h; rw [hword]; decide
    split at h
    · rename_i hword; cases h; rw [hword]; decide
    split at h
    · rename_i hword; cases h; rw [hword]; decide
    · cases h
  · rintro ⟨hkind, rfl⟩
    revert kind
    decide

theorem ofKeyword?_eq_none_iff {word : String} : ofKeyword? word = none ↔ word ∉ keywords := by
  have hkeywords : keywords = keywordKinds.map Spelled.tag := by decide
  rw [hkeywords]
  constructor
  · intro h hmem
    obtain ⟨kind, hkind, htag⟩ := List.mem_map.mp hmem
    rw [ofKeyword?_eq_some_iff.mpr ⟨hkind, htag⟩] at h
    cases h
  · intro h
    cases hword : ofKeyword? word with
    | none => rfl
    | some kind => exact absurd (List.mem_map.mpr ⟨kind, ofKeyword?_eq_some_iff.mp hword⟩) h

theorem ofSign?_eq_some_iff {c : Char} {kind : LineKind} :
    ofSign? c = some kind ↔ kind.sign = [c] := by
  unfold ofSign?
  split
  · rename_i hc; rw [hc]; cases kind <;> decide
  split
  · rename_i hc; rw [hc]; cases kind <;> decide
  split
  · rename_i hc; rw [hc]; cases kind <;> decide
  · rename_i hminus hplus hand
    cases kind <;> simp [sign, Ne.symm hminus, Ne.symm hplus, Ne.symm hand]

theorem ofSign?_eq_none_iff {c : Char} : ofSign? c = none ↔ c ∉ signs := by
  have hsigns : ∀ d : Char, d ∈ signs ↔ ∃ kind : LineKind, kind.sign = [d] := by
    intro d
    constructor
    · intro h
      simp only [signs, List.mem_cons, List.not_mem_nil, or_false] at h
      obtain rfl | rfl | rfl := h
      · exact ⟨excludePath, rfl⟩
      · exact ⟨overlay, rfl⟩
      · exact ⟨ditto, rfl⟩
    · rintro ⟨kind, h⟩
      cases kind <;> cases h <;> decide
  rw [hsigns]
  constructor
  · rintro h ⟨kind, hkind⟩
    rw [ofSign?_eq_some_iff.mpr hkind] at h
    cases h
  · intro h
    cases hc : ofSign? c with
    | none => rfl
    | some kind => exact absurd ⟨kind, ofSign?_eq_some_iff.mp hc⟩ h

/-- A kind with a sign is a kind of mapping. -/
theorem mem_mappingKinds_of_sign {c : Char} {kind : LineKind} (h : kind.sign = [c]) :
    kind ∈ mappingKinds ∧ kind ≠ includePath := by
  cases kind <;> simp_all [sign, mappingKinds]

/-- A mapping is an include, without a sign, or has a sign. -/
theorem sign_of_mem_mappingKinds {kind : LineKind} (h : kind ∈ mappingKinds) :
    kind = includePath ∨ ∃ c ∈ signs, kind.sign = [c] := by
  cases kind <;> simp_all [sign, mappingKinds, signs]

/-- No keyword begins with a sign. -/
theorem not_mem_keywords_of_sign {c : Char} (h : c ∈ signs) (rest : String) :
    String.ofList [c] ++ rest ∉ keywords := by
  have hhead : ∀ word ∈ keywords, (word.toList.head?.all fun d => d ∉ signs) = true := by decide
  intro hmem
  have hfirst : (String.ofList [c] ++ rest).toList.head? = some c := by
    rw [String.toList_append, String.toList_ofList]
    rfl
  have hnot := hhead _ hmem
  rw [hfirst] at hnot
  exact of_decide_eq_true hnot h

end LineKind

namespace ViewLine

open LineKind

/-! ## Sub-fields of an entry -/

/-- The entry without its comment. -/
def bare (e : ViewLine) : ViewLine := { e with comment := none }

/-- The sub-fields in the line of an entry: the keyword and the left path, or the left path with its
sign in front, and the right path if there is one. -/
def subFields (e : ViewLine) : List String :=
  (if e.keyword then [Spelled.tag e.kind, e.left] else [String.ofList e.kind.sign ++ e.left])
    ++ e.right.toList

/-- Holds if the first sub-field tells the kind of the entry. An entry of neither keyword nor sign
must not begin with a sign, nor with a keyword if a path follows. -/
def Shaped (e : ViewLine) : Prop :=
  (e.keyword = true ∧ e.kind ∈ keywordKinds) ∨
    (e.keyword = false ∧ e.kind ∈ mappingKinds ∧
      (e.kind = includePath →
        (∀ c ∈ e.left.toList.head?, c ∉ signs) ∧ (e.right ≠ none → e.left ∉ keywords)))

instance (e : ViewLine) : Decidable e.Shaped :=
  -- only one character has to be looked at, if there is one
  have : Decidable (∀ c ∈ e.left.toList.head?, c ∉ signs) := Option.decidableForallMem _
  inferInstanceAs (Decidable (_ ∨ (_ ∧ _ ∧ (_ → _ ∧ _))))

theorem subFields_ne_nil (e : ViewLine) : e.subFields ≠ [] := by
  unfold subFields
  split <;> simp

/-- The text of an entry without its comment is the line of its sub-fields. -/
theorem text_bare (e : ViewLine) : e.bare.text = Text.written e.subFields := by
  obtain ⟨kind, keyword, left, right, comment⟩ := e
  have htag : Text.quoted (Spelled.tag kind) = Spelled.tag kind := by
    cases kind <;> decide
  cases keyword <;> cases right <;>
    simp [bare, text, pathsText, leftText, subFields, Text.written_cons_cons, htag,
      String.append_assoc]

/-- Quotes in the sub-fields are quotes in the paths. -/
theorem quote_not_mem_subFields_iff (e : ViewLine) :
    (∀ x ∈ e.subFields, '"' ∉ x.toList) ↔
      '"' ∉ e.left.toList ∧ ∀ right ∈ e.right, '"' ∉ right.toList := by
  have htag : '"' ∉ (Spelled.tag e.kind).toList := by
    cases e.kind <;> decide
  have hsign : '"' ∉ e.kind.sign := by
    cases e.kind <;> decide
  unfold subFields
  split <;> simp [htag, hsign]

/-! ## From sub-fields to entries -/

/-- A mapping is read as one of the kinds of mappings, with what stands behind its sign. -/
theorem exists_ofMapping (left : String) (right : Option String) :
    ∃ kind rest, ofMapping left right = { kind, left := rest, right } ∧
      String.ofList kind.sign ++ rest = left ∧ kind ∈ mappingKinds ∧
      (kind = includePath → ∀ c ∈ rest.toList.head?, c ∉ signs) := by
  cases hleft : left.toList with
  | nil =>
    have hmapping : ofMapping left right = { left, right } := by simp only [ofMapping, hleft]
    refine ⟨includePath, left, hmapping, String.empty_append, by decide, fun _ c hc => ?_⟩
    rw [hleft] at hc
    cases hc
  | cons c cs =>
    cases hsign : ofSign? c with
    | none =>
      have hmapping : ofMapping left right = { left, right } := by
        simp only [ofMapping, hleft, hsign]
      refine ⟨includePath, left, hmapping, String.empty_append, by decide, fun _ d hd => ?_⟩
      rw [hleft] at hd
      obtain rfl : c = d := Option.some.inj hd
      exact ofSign?_eq_none_iff.mp hsign
    | some kind =>
      have hmapping : ofMapping left right = { kind, left := String.ofList cs, right } := by
        simp only [ofMapping, hleft, hsign]
      have hkind : kind.sign = [c] := ofSign?_eq_some_iff.mp hsign
      obtain ⟨hmem, hne⟩ := mem_mappingKinds_of_sign hkind
      refine ⟨kind, String.ofList cs, hmapping, ?_, hmem, fun h => absurd h hne⟩
      rw [hkind, ← String.toList_inj, String.toList_append, String.toList_ofList,
        String.toList_ofList, hleft]
      rfl

/-- A path with the sign of its kind in front is read as a mapping of this kind. -/
theorem ofMapping_sign {kind : LineKind} (hkind : kind ∈ mappingKinds) {left : String}
    (hleft : kind = includePath → ∀ c ∈ left.toList.head?, c ∉ signs) (right : Option String) :
    ofMapping (String.ofList kind.sign ++ left) right = { kind, left, right } := by
  obtain rfl | ⟨c, -, hsign⟩ := sign_of_mem_mappingKinds hkind
  · -- there is no sign, and none must be seen
    have htext : String.ofList (sign includePath) ++ left = left := String.empty_append
    rw [htext, ofMapping]
    cases h : left.toList with
    | nil => rfl
    | cons c cs =>
      have hnone : ofSign? c = none := ofSign?_eq_none_iff.mpr (hleft rfl c (by rw [h]; rfl))
      simp only [hnone]
  · have htext : (String.ofList kind.sign ++ left).toList = c :: left.toList := by
      rw [String.toList_append, String.toList_ofList, hsign]
      rfl
    simp only [ofMapping, htext, ofSign?_eq_some_iff.mpr hsign, String.ofList_toList]

/-- **Sub-fields of which the first tells the kind make up their entry.** -/
theorem ofFields_subFields {e : ViewLine} (h : e.Shaped) : ofFields e.subFields = e.bare := by
  obtain ⟨kind, keyword, left, right, comment⟩ := e
  obtain ⟨rfl, hkind⟩ | ⟨rfl, hkind, hinclude⟩ := h
  · have hkeyword : ofKeyword? (Spelled.tag kind) = some kind :=
      ofKeyword?_eq_some_iff.mpr ⟨hkind, rfl⟩
    cases right <;> simp [subFields, ofFields, hkeyword, bare]
  · have hmapping := ofMapping_sign hkind (fun hk => (hinclude hk).1)
    cases right with
    | none => exact hmapping none
    | some right =>
      have hnone : ofKeyword? (String.ofList kind.sign ++ left) = none := by
        rw [ofKeyword?_eq_none_iff]
        obtain rfl | ⟨c, hc, hsign⟩ := sign_of_mem_mappingKinds hkind
        · have hleft := (hinclude rfl).2 (Option.some_ne_none right)
          rwa [show String.ofList (sign includePath) ++ left = left from String.empty_append]
        · rw [hsign]
          exact not_mem_keywords_of_sign hc left
      simp only [subFields, Bool.false_eq_true, if_false, Option.toList_some, List.cons_append,
        List.nil_append, ofFields, hnone, hmapping, bare]

/-- **What is read from sub-fields is an entry whose kind the first of them tells**, and its own
sub-fields are the first of them. -/
theorem shaped_ofFields {ys : List String} (h : ys ≠ []) :
    (ofFields ys).Shaped ∧ (ofFields ys).subFields <+: ys := by
  match ys with
  | [] => exact absurd rfl h
  | [left] =>
    obtain ⟨kind, rest, heq, htext, hkind, hinclude⟩ := exists_ofMapping left none
    rw [ofFields, heq]
    refine ⟨.inr ⟨rfl, hkind, fun hk => ⟨hinclude hk, fun hright => absurd rfl hright⟩⟩, ?_⟩
    simp [subFields, htext]
  | first :: second :: rest =>
    rw [ofFields]
    cases hkeyword : ofKeyword? first with
    | some kind =>
      obtain ⟨hkind, htag⟩ := ofKeyword?_eq_some_iff.mp hkeyword
      refine ⟨.inl ⟨rfl, hkind⟩, ?_⟩
      cases rest <;> simp [subFields, htag]
    | none =>
      obtain ⟨kind, left, heq, htext, hkind, hinclude⟩ := exists_ofMapping first (some second)
      simp only [heq]
      refine ⟨.inr ⟨rfl, hkind, fun hk => ⟨hinclude hk, fun _ => ?_⟩⟩, ?_⟩
      · -- without a sign the left path is the first sub-field, which is no keyword
        obtain rfl : left = first := by
          have hinclude : kind = includePath := hk
          rw [← htext, hinclude]
          exact String.empty_append.symm
        exact ofKeyword?_eq_none_iff.mp hkeyword
      · simp [subFields, htext]

/-- A line has no comment of its own. -/
theorem bare_ofFields (ys : List String) : (ofFields ys).bare = ofFields ys := by
  match ys with
  | [] => rfl
  | [left] =>
    obtain ⟨kind, rest, heq, -⟩ := exists_ofMapping left none
    rw [ofFields, heq]
    rfl
  | first :: second :: rest =>
    rw [ofFields]
    cases ofKeyword? first with
    | some kind => rfl
    | none =>
      obtain ⟨kind, left, heq, -⟩ := exists_ofMapping first (some second)
      simp only [heq]
      rfl

/-! ## Lines -/

/-- **Which entries are read back from their lines**: those whose kind is told by the first
sub-field, whose paths hold no quote, and whose sub-fields are whole; and the empty one. -/
theorem parse_text_bare_iff (e : ViewLine) :
    parse e.bare.text = e.bare ↔
      e.Shaped ∧ (∀ x ∈ e.subFields, '"' ∉ x.toList) ∧
        (e.subFields = [""] ∨ ∀ x ∈ e.subFields, Text.Whole x) := by
  rw [text_bare, parse]
  constructor
  · intro h
    by_cases hys : Text.fields (Text.written e.subFields) = []
    · -- nothing is read, so this is the empty entry
      rw [hys] at h
      have hshaped : e.bare.Shaped := h ▸ (by decide : (ofFields []).Shaped)
      have hempty : e.bare.subFields = [""] := h ▸ (by decide : (ofFields []).subFields = [""])
      have hsame : e.subFields = [""] := hempty
      refine ⟨hshaped, ?_, .inl hsame⟩
      rw [hsame]
      decide
    · obtain ⟨hshaped, hfirst⟩ := shaped_ofFields hys
      rw [h] at hshaped hfirst
      have hquote : ∀ x ∈ e.subFields, '"' ∉ x.toList := fun x hx =>
        Text.quote_not_mem_of_mem_fields (hfirst.subset hx)
      exact ⟨hshaped, hquote, .inr (Text.whole_of_prefix_fields_written hquote hfirst)⟩
  · rintro ⟨hshaped, hquote, hempty | hwhole⟩
    · rw [← ofFields_subFields hshaped, hempty]
      decide
    · rw [Text.fields_written hquote hwhole, ofFields_subFields hshaped]

/-! ## Entries that were read -/

/-- The paths in the line of an entry, the left one with its sign in front. -/
def writtenPaths (e : ViewLine) : List String :=
  (if e.keyword then e.left else String.ofList e.kind.sign ++ e.left) :: e.right.toList

/-- The spelling of a kind, which stands in front of the paths if it is a keyword, is whole. -/
theorem whole_subFields_iff (e : ViewLine) :
    (∀ x ∈ e.subFields, Text.Whole x) ↔ ∀ x ∈ e.writtenPaths, Text.Whole x := by
  have htag : Text.Whole (Spelled.tag e.kind) := by
    cases e.kind <;> decide
  unfold subFields writtenPaths
  split <;> simp [htag]

/-- Of the entries whose kind the first sub-field tells, only the empty one has nothing in its
line. -/
theorem subFields_eq_singleton_iff {e : ViewLine} (h : e.Shaped) :
    e.subFields = [""] ↔ e.bare = {} := by
  constructor
  · intro hempty
    obtain ⟨kind, keyword, left, right, comment⟩ := e
    obtain ⟨rfl, -⟩ | ⟨rfl, hkind, -⟩ := h
    · -- behind a keyword there would be a path
      have hlength := congrArg List.length hempty
      simp [subFields] at hlength
    · obtain ⟨⟨hsign, hleft⟩, hright⟩ : (kind.sign = [] ∧ left = "") ∧ right = none := by
        simpa [subFields] using hempty
      obtain rfl | ⟨c, -, hc⟩ := sign_of_mem_mappingKinds hkind
      · rw [bare, hleft, hright]
      · rw [hc] at hsign
        cases hsign
  · intro hbare
    have hsame : e.bare.subFields = e.subFields := rfl
    rw [← hsame, hbare]
    decide

/-- Every entry that is read has a kind that its first sub-field tells, and no quote in its
sub-fields. -/
theorem shaped_parse (line : String) :
    (parse line).Shaped ∧ ∀ x ∈ (parse line).subFields, '"' ∉ x.toList := by
  rw [parse]
  by_cases hys : Text.fields line = []
  · rw [hys]
    decide
  · obtain ⟨hshaped, hfirst⟩ := shaped_ofFields hys
    exact ⟨hshaped, fun x hx => Text.quote_not_mem_of_mem_fields (hfirst.subset hx)⟩

/-- **Which entries that were read are read again from their lines**: the empty one, and those of
which every path in the line is something and has a space if it has a tab. -/
theorem parse_text_parse_iff (line : String) :
    parse (parse line).text = parse line ↔
      parse line = {} ∨ ∀ x ∈ (parse line).writtenPaths, Text.Whole x := by
  obtain ⟨hshaped, hquote⟩ := shaped_parse line
  have hbare : (parse line).bare = parse line := bare_ofFields _
  have hiff := (parse line).parse_text_bare_iff
  rw [whole_subFields_iff, subFields_eq_singleton_iff hshaped, hbare] at hiff
  rw [hiff]
  exact ⟨fun h => h.2.2, fun h => ⟨hshaped, hquote, h⟩⟩

/-- A tab that stood within quotes parts the path when it is read again. -/
example : parse (parse "\"a\tb\" c").text = { left := "a", right := some "b" } := by decide

end ViewLine

end DepotClient
