import DepotClient.Stream.OfRecord

/-! # Declarations are read back

A description of a form is written declaration by declaration: a name and attributes with one
semicolon between them, and two semicolons behind the last. As no name and no attribute is empty or
holds a semicolon, two semicolons stand side by side only at the end of a declaration.

* **`FieldDeclaration.sections_append_pair`** — a pair of semicolons ends a section in which, with
  one semicolon behind it, there is no pair;
* **`FieldDeclaration.toldType`** — the type that attributes tell;
* **`FieldDeclaration.parseAll_description`** — the fields come back in order with their types. -/

namespace DepotClient

namespace FieldDeclaration

/-! ## Sections -/

theorem sections_cons_of_ne {c : Char} (h : c ≠ ';') (cs : List Char) :
    sections (c :: cs) = Text.consFirst c (sections cs) := by
  rw [sections]
  rintro ds rfl -
  exact h rfl

theorem sections_semicolon_of_ne {c : Char} (h : c ≠ ';') (cs : List Char) :
    sections (';' :: c :: cs) = Text.consFirst ';' (sections (c :: cs)) := by
  rw [sections]
  rintro ds - heq
  exact h (List.cons.inj heq).1

/-- **A pair of semicolons ends a section**, if no pair stands in the section and none comes about
where it ends. -/
theorem sections_append_pair {section' : List Char}
    (h : ¬ [';', ';'] <:+: section' ++ [';']) (rest : List Char) :
    sections (section' ++ ';' :: ';' :: rest) = section' :: sections rest := by
  induction section' with
  | nil => rfl
  | cons c cs ih =>
    have htail : ¬ [';', ';'] <:+: cs ++ [';'] := fun hin =>
      h (hin.trans (List.suffix_cons c _).isInfix)
    have hrest := ih htail
    by_cases hc : c = ';'
    · subst hc
      cases cs with
      | nil => exact absurd (List.infix_refl _) h
      | cons d cs =>
        -- a second semicolon would make a pair with the first
        have hd : d ≠ ';' := by
          rintro rfl
          exact h ⟨[], cs ++ [';'], rfl⟩
        rw [List.cons_append, List.cons_append, sections_semicolon_of_ne hd, ← List.cons_append,
          hrest]
        rfl
    · rw [List.cons_append, sections_cons_of_ne hc, hrest]
      rfl

/-! ## Written declarations -/

/-- Holds of what can be a name or an attribute. -/
def IsWord (s : String) : Prop := s ≠ "" ∧ ';' ∉ s.toList

instance (s : String) : Decidable (IsWord s) := inferInstanceAs (Decidable (_ ∧ _))

/-- A field as a form declares it. -/
structure Written where
  /-- The name of the field. -/
  name : String
  /-- What is told about it. -/
  attributes : List String
  /-- The name can be told from what follows. -/
  isWord_name : IsWord name
  /-- The attributes can be told from each other. -/
  isWord_attributes : ∀ a ∈ attributes, IsWord a

/-- The text of a declaration. -/
def Written.text (d : Written) : String := String.intercalate ";" (d.name :: d.attributes) ++ ";;"

/-- The text that declares the given fields. -/
def description (ds : List Written) : String := String.join (ds.map Written.text)

/-- Name and attributes as they stand in a section, with a semicolon between them. -/
def Written.sectionText (d : Written) : List Char :=
  List.intercalate [';'] ((d.name :: d.attributes).map String.toList)

variable (d : Written)

theorem Written.toList_text : d.text.toList = d.sectionText ++ [';', ';'] := by
  rw [text, String.toList_append, String.toList_intercalate]
  rfl

theorem Written.isWord {w : String} (h : w ∈ d.name :: d.attributes) : IsWord w := by
  obtain rfl | hw := List.mem_cons.mp h
  · exact d.isWord_name
  · exact d.isWord_attributes w hw

/-- The semicolons of a section part its words. -/
theorem Written.cut_sectionText :
    Text.cut (· == ';') d.sectionText = (d.name :: d.attributes).map String.toList := by
  refine Text.cut_intercalate (by decide) (by simp) fun piece hpiece c hc => ?_
  obtain ⟨w, hw, rfl⟩ := List.mem_map.mp hpiece
  rw [beq_eq_false_iff_ne]
  rintro rfl
  exact (d.isWord hw).2 hc

/-- **No pair of semicolons stands in a section**, nor comes about behind it: between the two an
empty word would have to stand. -/
theorem Written.not_pair_infix : ¬ [';', ';'] <:+: d.sectionText ++ [';'] := by
  rintro ⟨before, after, heq⟩
  have hparted : ∀ cs ds : List Char, Text.cut (· == ';') (cs ++ ';' :: ds) =
      Text.cut (· == ';') cs ++ Text.cut (· == ';') ds := Text.cut_append_cons rfl
  have hcut : (d.name :: d.attributes).map String.toList ++ [[]] =
      Text.cut (· == ';') before ++ [] :: Text.cut (· == ';') after :=
    calc (d.name :: d.attributes).map String.toList ++ [[]]
        = Text.cut (· == ';') (d.sectionText ++ [';']) := by rw [hparted, d.cut_sectionText]; rfl
      _ = Text.cut (· == ';') (before ++ ';' :: ';' :: after) := by
          rw [← heq, List.append_assoc]
          rfl
      _ = Text.cut (· == ';') before ++ [] :: Text.cut (· == ';') after := by rw [hparted]; rfl
  obtain ⟨front, last, hlast⟩ : ∃ front last, Text.cut (· == ';') after = front ++ [last] :=
    ⟨_, _, (List.dropLast_concat_getLast (Text.cut_ne_nil _ _)).symm⟩
  rw [hlast, ← List.cons_append, ← List.append_assoc] at hcut
  obtain ⟨hwords, -⟩ := List.append_inj' hcut rfl
  have hempty : [] ∈ (d.name :: d.attributes).map String.toList := by
    rw [hwords]
    exact List.mem_append_right _ List.mem_cons_self
  obtain ⟨w, hw, hnil⟩ := List.mem_map.mp hempty
  exact (d.isWord hw).1 (String.toList_eq_nil_iff.mp hnil)

/-- The sections of a description are those of its declarations, with an empty one at the end. -/
theorem sections_description (ds : List Written) :
    sections (description ds).toList = ds.map Written.sectionText ++ [[]] := by
  rw [description, String.toList_join, List.flatMap_map]
  induction ds with
  | nil => rfl
  | cons d ds ih =>
    rw [List.flatMap_cons, d.toList_text, List.append_assoc, List.cons_append, List.cons_append,
      List.nil_append, sections_append_pair d.not_pair_infix, ih]
    rfl

/-! ## Types -/

/-- The type that attributes tell: what the first one that begins with `type:` says behind that, and
`word` if there is none. -/
def toldType : List String → String
  | [] => "word"
  | a :: attributes =>
    if "type:".toList <+: a.toList then String.ofList (a.toList.drop 5) else toldType attributes

theorem typeOfAttribute?_eq_some_iff {a cs : List Char} :
    typeOfAttribute? a = some cs ↔ a = "type:".toList ++ cs := by
  constructor
  · intro h
    unfold typeOfAttribute? at h
    split at h
    · rw [Option.some.inj h]
      rfl
    · cases h
  · rintro rfl
    rfl

/-- The type that is read is the one that the attributes tell. -/
theorem getD_findSome?_typeOfAttribute? (attributes : List String) :
    (((attributes.map String.toList).findSome? typeOfAttribute?).map String.ofList).getD
      defaultType = toldType attributes := by
  induction attributes with
  | nil => rfl
  | cons a attributes ih =>
    rw [List.map_cons, List.findSome?_cons, toldType]
    cases htype : typeOfAttribute? a.toList with
    | some cs =>
      rw [typeOfAttribute?_eq_some_iff.mp htype, if_pos (List.prefix_append _ _)]
      rfl
    | none =>
      rw [if_neg, ← ih]
      rintro ⟨cs, ha⟩
      rw [typeOfAttribute?_eq_some_iff.mpr ha.symm] at htype
      cases htype

/-! ## Reading -/

/-- The field that a declaration declares. -/
def Written.field (d : Written) : FieldDeclaration := ⟨d.name, toldType d.attributes⟩

theorem Written.ofPiece?_sectionText : ofPiece? d.sectionText = some d.field := by
  have hname : d.name.toList ≠ [] := fun h => d.isWord_name.1 (String.toList_eq_nil_iff.mp h)
  rw [ofPiece?, d.cut_sectionText, List.map_cons, field, ← getD_findSome?_typeOfAttribute?]
  simp only [hname, if_false, String.ofList_toList]

/-- **A description is read back**: its fields come in order, each with its name and its type. -/
theorem parseAll_description (ds : List Written) :
    parseAll (description ds) = ds.map Written.field := by
  have hend : [([] : List Char)].filterMap ofPiece? = [] := rfl
  rw [parseAll, sections_description, List.filterMap_append, hend, List.append_nil,
    List.filterMap_map]
  have hread : ofPiece? ∘ Written.sectionText = some ∘ Written.field :=
    funext Written.ofPiece?_sectionText
  rw [hread, List.filterMap_eq_map]

end FieldDeclaration

end DepotClient
