import DepotClient.Text.Basic

/-! # What texts come apart into

* **`cut p`** — the pieces between the elements that satisfy `p`, empty ones included, so that
  `n` separators always leave `n + 1` pieces;
* **`words`** — the maximal runs without a blank;
* **`fields`** — the sub-fields of a line. A compound value is a line of sub-fields with blanks between
  them. A double quote opens or closes a quoted stretch, in which blanks do not separate; the quotes
  themselves belong to no sub-field. A stretch that is never closed runs to the end, and a sub-field
  that is empty but was quoted is kept;
* **`quoted`** — a sub-field as it is written back, in quotes when it contains a space. -/

namespace DepotClient.Text

/-! ## Cutting -/

/-- Puts an element in front of the first piece. -/
def consFirst {α : Type} (a : α) : List (List α) → List (List α)
  | [] => [[a]]
  | piece :: pieces => (a :: piece) :: pieces

@[simp] theorem consFirst_ne_nil {α : Type} (a : α) (pieces : List (List α)) :
    consFirst a pieces ≠ [] := by
  cases pieces <;> simp [consFirst]

/-- The pieces of a list between the elements that satisfy `p`. Neighbouring separators, and
separators at an end, leave empty pieces. -/
def cut {α : Type} (p : α → Bool) : List α → List (List α)
  | [] => [[]]
  | a :: as => if p a then [] :: cut p as else consFirst a (cut p as)

@[simp] theorem cut_nil {α : Type} (p : α → Bool) : cut p [] = [[]] := rfl

theorem cut_cons {α : Type} (p : α → Bool) (a : α) (as : List α) :
    cut p (a :: as) = if p a then [] :: cut p as else consFirst a (cut p as) := rfl

/-- There is always a first piece. -/
theorem cut_ne_nil {α : Type} (p : α → Bool) (as : List α) : cut p as ≠ [] := by
  cases as with
  | nil => simp
  | cons a as => rw [cut_cons]; split <;> simp

theorem consFirst_append {α : Type} (a : α) {pieces : List (List α)} (h : pieces ≠ [])
    (others : List (List α)) : consFirst a (pieces ++ others) = consFirst a pieces ++ others := by
  cases pieces with
  | nil => exact absurd rfl h
  | cons piece pieces => rfl

/-- A separator parts the pieces in front of it from those behind it. -/
theorem cut_append_cons {α : Type} {p : α → Bool} {a : α} (h : p a = true) (as bs : List α) :
    cut p (as ++ a :: bs) = cut p as ++ cut p bs := by
  induction as with
  | nil => rw [List.nil_append, cut_cons, if_pos h, cut_nil, List.singleton_append]
  | cons c as ih =>
    rw [List.cons_append, cut_cons, cut_cons, ih]
    split
    · rfl
    · exact consFirst_append c (cut_ne_nil p as) _

/-- Without a separator there is one piece. -/
theorem cut_eq_singleton {α : Type} {p : α → Bool} {as : List α} (h : ∀ a ∈ as, p a = false) :
    cut p as = [as] := by
  induction as with
  | nil => rfl
  | cons a as ih =>
    obtain ⟨ha, has⟩ := List.forall_mem_cons.mp h
    rw [cut_cons, ha, ih has]
    rfl

/-- **Pieces with a separator between them are the pieces of their text**, if no other separator
stands in them. -/
theorem cut_intercalate {α : Type} {p : α → Bool} {a : α} (ha : p a = true)
    {pieces : List (List α)} (hne : pieces ≠ []) (h : ∀ piece ∈ pieces, ∀ b ∈ piece, p b = false) :
    cut p (List.intercalate [a] pieces) = pieces := by
  induction pieces with
  | nil => exact absurd rfl hne
  | cons piece pieces ih =>
    obtain ⟨hpiece, hpieces⟩ := List.forall_mem_cons.mp h
    cases pieces with
    | nil => rw [List.intercalate_singleton, cut_eq_singleton hpiece]
    | cons next pieces =>
      rw [List.intercalate_cons_cons, List.append_assoc, List.singleton_append,
        cut_append_cons ha, cut_eq_singleton hpiece, ih (List.cons_ne_nil _ _) hpieces]
      rfl

/-! ## Words -/

/-- The words of a text: its maximal non-empty runs without a blank, in order. -/
def words (cs : List Char) : List (List Char) := (cut isBlank cs).filter (· ≠ [])

@[simp] theorem words_nil : words [] = [] := rfl

/-- A blank parts the words in front of it from those behind it. -/
theorem words_append_cons {c : Char} (h : isBlank c = true) (cs ds : List Char) :
    words (cs ++ c :: ds) = words cs ++ words ds := by
  rw [words, cut_append_cons h, List.filter_append]
  rfl

/-- Blanks in front of a text belong to no word. -/
theorem words_blanks_append {gap : List Char} (h : ∀ c ∈ gap, isBlank c = true) (cs : List Char) :
    words (gap ++ cs) = words cs := by
  induction gap with
  | nil => rfl
  | cons c gap ih =>
    obtain ⟨hc, hgap⟩ := List.forall_mem_cons.mp h
    have hfirst : words (c :: (gap ++ cs)) = words (gap ++ cs) := words_append_cons hc [] _
    rw [List.cons_append, hfirst, ih hgap]

/-- A run of blanks parts the words in front of it from those behind it. -/
theorem words_append_gap {gap : List Char} (hne : gap ≠ []) (h : ∀ c ∈ gap, isBlank c = true)
    (cs ds : List Char) : words (cs ++ (gap ++ ds)) = words cs ++ words ds := by
  cases gap with
  | nil => exact absurd rfl hne
  | cons c gap =>
    obtain ⟨hc, hgap⟩ := List.forall_mem_cons.mp h
    rw [List.cons_append, words_append_cons hc, words_blanks_append hgap]

theorem words_eq_singleton {cs : List Char} (hne : cs ≠ []) (h : ∀ c ∈ cs, isBlank c = false) :
    words cs = [cs] := by
  rw [words, cut_eq_singleton h]
  simp [hne]

/-- **Words with a space between them are the words of their text.** -/
theorem words_intercalate {ws : List String}
    (h : ∀ w ∈ ws, w ≠ "" ∧ ∀ c ∈ w.toList, isBlank c = false) :
    words (String.intercalate " " ws).toList = ws.map String.toList := by
  have hspace : isBlank ' ' = true := by decide
  induction ws with
  | nil => rfl
  | cons w ws ih =>
    obtain ⟨⟨hne, hblank⟩, hws⟩ := List.forall_mem_cons.mp h
    have hword : words w.toList = [w.toList] :=
      words_eq_singleton (fun hnil => hne (String.toList_eq_nil_iff.mp hnil)) hblank
    cases ws with
    | nil =>
      have htext : (String.intercalate " " [w]).toList = w.toList := by simp
      rw [htext, hword]
      rfl
    | cons v ws =>
      have htext : (String.intercalate " " (w :: v :: ws)).toList =
          w.toList ++ ' ' :: (String.intercalate " " (v :: ws)).toList := by
        simp [String.toList_intercalate]
      rw [htext, words_append_cons hspace, hword, ih hws]
      rfl

/-! ## Sub-fields of a line -/

/-- The characters that separate sub-fields. -/
def isSeparator (c : Char) : Bool := c == ' ' || c == '\t'

/-- Where the scan of a line stands: whether a quoted stretch is open, whether the current
sub-field had a quote, and its characters so far. -/
structure FieldScan where
  /-- A quoted stretch is open. -/
  inQuotes : Bool
  /-- The current sub-field had a quote. -/
  sawQuote : Bool
  /-- The characters of the current sub-field, last one first. -/
  reversed : List Char

/-- At the start of a line, and behind a separator. -/
def FieldScan.start : FieldScan := ⟨false, false, []⟩

/-- The sub-field that ends here, if there is one: an empty one counts only if it was quoted. -/
def FieldScan.finish (s : FieldScan) : List (List Char) :=
  if s.reversed = [] ∧ s.sawQuote = false then [] else [s.reversed.reverse]

/-- The sub-fields of the rest of a line, from the given state on. -/
def fieldsFrom (s : FieldScan) : List Char → List (List Char)
  | [] => s.finish
  | c :: cs =>
    if c = '"' then fieldsFrom ⟨!s.inQuotes, true, s.reversed⟩ cs
    else if isSeparator c && !s.inQuotes then s.finish ++ fieldsFrom .start cs
    else fieldsFrom ⟨s.inQuotes, s.sawQuote, c :: s.reversed⟩ cs

/-- The sub-fields of a line. -/
def fields (line : String) : List String :=
  (fieldsFrom .start line.toList).map String.ofList

/-- A sub-field as it is written in a line: in double quotes when it contains a space. -/
def quoted (field : String) : String :=
  if ' ' ∈ field.toList then "\"" ++ field ++ "\"" else field

@[simp] theorem fieldsFrom_nil (s : FieldScan) : fieldsFrom s [] = s.finish := rfl

@[simp] theorem fields_empty : fields "" = [] := by decide

end DepotClient.Text
