import Mathlib.Data.List.Basic
import DepotClient.Text.Words

/-! # Sub-fields that survive being written

Sub-fields are written into a line with one space between them, each in double quotes if it
contains a space. The line is read back by cutting it at the separators outside of quotes
(`fieldsFrom_append_separator`), and it gives the sub-fields back just if each of them is `Whole`:

* one that is empty leaves nothing behind, since it is not put in quotes;
* one that has a tab but no space is not put in quotes either, and falls apart at the tab.

What is read from quoted or unquoted sub-fields is always whole (`whole_of_mem_fields_quoted`), so a
sub-field that is not whole can not come back from any other one.

* **`fields_intercalate`** — a line of pieces is read piece by piece, if the quotes of each are
  closed;
* **`fields_written`** — sub-fields that are whole are read back;
* **`whole_of_prefix_fields_written`** — and no others are, not even as the first ones of more. -/

namespace DepotClient.Text

/-! ## Cutting outside of quotes -/

/-- Holds if a quoted stretch is open behind a text, where `inQuotes` tells whether one is open in
front of it. -/
def openBehind (inQuotes : Bool) (cs : List Char) : Bool :=
  cs.foldl (fun q c => if c = '"' then !q else q) inQuotes

@[simp] theorem openBehind_nil (inQuotes : Bool) : openBehind inQuotes [] = inQuotes := rfl

theorem openBehind_cons (inQuotes : Bool) (c : Char) (cs : List Char) :
    openBehind inQuotes (c :: cs) = openBehind (if c = '"' then !inQuotes else inQuotes) cs := rfl

theorem openBehind_append (inQuotes : Bool) (cs ds : List Char) :
    openBehind inQuotes (cs ++ ds) = openBehind (openBehind inQuotes cs) ds :=
  List.foldl_append

/-- A text without quotes opens and closes nothing. -/
theorem openBehind_of_not_mem {cs : List Char} (h : '"' ∉ cs) (inQuotes : Bool) :
    openBehind inQuotes cs = inQuotes := by
  induction cs with
  | nil => rfl
  | cons c cs ih =>
    have hc : c ≠ '"' := fun hc => h (hc ▸ List.mem_cons_self)
    rw [openBehind_cons, if_neg hc]
    exact ih fun hmem => h (List.mem_cons_of_mem c hmem)

/-- A quote is no separator. -/
theorem ne_quote_of_isSeparator {c : Char} (h : isSeparator c = true) : c ≠ '"' := by
  rintro rfl
  revert h
  decide

/-- A quote opens or closes a stretch. -/
theorem fieldsFrom_quote (s : FieldScan) (cs : List Char) :
    fieldsFrom s ('"' :: cs) = fieldsFrom ⟨!s.inQuotes, true, s.reversed⟩ cs := by
  rw [fieldsFrom, if_pos rfl]

/-- A separator outside of quotes ends the current sub-field. -/
theorem fieldsFrom_separator {s : FieldScan} (hopen : s.inQuotes = false) {c : Char}
    (hc : isSeparator c = true) (cs : List Char) :
    fieldsFrom s (c :: cs) = s.finish ++ fieldsFrom .start cs := by
  have hcut : (isSeparator c && !s.inQuotes) = true := by rw [hc, hopen]; rfl
  rw [fieldsFrom, if_neg (ne_quote_of_isSeparator hc), if_pos hcut]

/-- Any other character belongs to the current sub-field. -/
theorem fieldsFrom_plain {s : FieldScan} {c : Char} (hquote : c ≠ '"')
    (hplain : isSeparator c = false ∨ s.inQuotes = true) (cs : List Char) :
    fieldsFrom s (c :: cs) = fieldsFrom ⟨s.inQuotes, s.sawQuote, c :: s.reversed⟩ cs := by
  have hkeep : ¬(isSeparator c && !s.inQuotes) = true := by
    obtain hc | hopen := hplain
    · rw [hc, Bool.false_and]; decide
    · rw [hopen, Bool.not_true, Bool.and_false]; decide
  rw [fieldsFrom, if_neg hquote, if_neg hkeep]

/-- **A line is cut at a separator outside of quotes.** The induction is on the text in front of it;
whatever cuts lie in there are the same with the separator behind it as without. -/
theorem fieldsFrom_append_separator {sep : Char} (hsep : isSeparator sep = true)
    {s : FieldScan} {cs : List Char} (h : openBehind s.inQuotes cs = false) (rest : List Char) :
    fieldsFrom s (cs ++ sep :: rest) = fieldsFrom s cs ++ fieldsFrom .start rest := by
  induction cs generalizing s with
  | nil =>
    rw [List.nil_append, fieldsFrom_separator h hsep, fieldsFrom_nil]
  | cons c cs ih =>
    rw [openBehind_cons] at h
    rw [List.cons_append]
    by_cases hquote : c = '"'
    · rw [if_pos hquote] at h
      rw [hquote, fieldsFrom_quote, fieldsFrom_quote]
      exact ih h
    · rw [if_neg hquote] at h
      by_cases hcut : isSeparator c = true ∧ s.inQuotes = false
      · rw [fieldsFrom_separator hcut.2 hcut.1, fieldsFrom_separator hcut.2 hcut.1,
          List.append_assoc]
        rw [hcut.2] at h
        exact congrArg (s.finish ++ ·) (ih (s := .start) h)
      · have hplain : isSeparator c = false ∨ s.inQuotes = true := by
          cases hc : isSeparator c <;> cases hs : s.inQuotes <;> simp_all
        rw [fieldsFrom_plain hquote hplain, fieldsFrom_plain hquote hplain]
        exact ih h

/-- A run in which nothing ends the current sub-field becomes part of it. -/
theorem fieldsFrom_append_run {s : FieldScan} {cs : List Char} (hquote : '"' ∉ cs)
    (hplain : s.inQuotes = true ∨ ∀ c ∈ cs, isSeparator c = false) (rest : List Char) :
    fieldsFrom s (cs ++ rest) =
      fieldsFrom ⟨s.inQuotes, s.sawQuote, cs.reverse ++ s.reversed⟩ rest := by
  induction cs generalizing s with
  | nil => rfl
  | cons c cs ih =>
    have hc : c ≠ '"' := fun hc => hquote (hc ▸ List.mem_cons_self)
    have hfirst : isSeparator c = false ∨ s.inQuotes = true :=
      hplain.symm.imp_left fun hall => hall c List.mem_cons_self
    have hrest : s.inQuotes = true ∨ ∀ d ∈ cs, isSeparator d = false :=
      hplain.imp_right fun hall d hd => hall d (List.mem_cons_of_mem c hd)
    rw [List.cons_append, fieldsFrom_plain hc hfirst,
      ih (s := ⟨s.inQuotes, s.sawQuote, c :: s.reversed⟩)
        (fun hmem => hquote (List.mem_cons_of_mem c hmem)) hrest,
      List.reverse_cons, List.append_assoc]
    rfl

/-! ## What is read from a line -/

/-- No quote belongs to a sub-field. -/
theorem quote_not_mem_of_mem_fieldsFrom {s : FieldScan} {cs field : List Char}
    (hs : '"' ∉ s.reversed) (h : field ∈ fieldsFrom s cs) : '"' ∉ field := by
  have hfinish : ∀ {t : FieldScan}, '"' ∉ t.reversed → field ∈ t.finish → '"' ∉ field := by
    intro t ht hmem
    unfold FieldScan.finish at hmem
    split at hmem
    · cases hmem
    · rw [List.mem_singleton.mp hmem]
      exact fun hq => ht (List.mem_reverse.mp hq)
  induction cs generalizing s with
  | nil => exact hfinish hs h
  | cons c cs ih =>
    rw [fieldsFrom] at h
    split at h
    · exact ih (s := ⟨!s.inQuotes, true, s.reversed⟩) hs h
    · rename_i hc
      split at h
      · obtain hmem | hmem := List.mem_append.mp h
        · exact hfinish hs hmem
        · exact ih (s := .start) List.not_mem_nil hmem
      · refine ih (s := ⟨s.inQuotes, s.sawQuote, c :: s.reversed⟩) (fun hmem => ?_) h
        obtain heq | hmem := List.mem_cons.mp hmem
        · exact hc heq.symm
        · exact hs hmem

/-- Outside of quotes every sub-field is something, and no separator stands in it. -/
theorem plain_of_mem_fieldsFrom {reversed cs field : List Char} (hquote : '"' ∉ cs)
    (hs : ∀ c ∈ reversed, isSeparator c = false)
    (h : field ∈ fieldsFrom ⟨false, false, reversed⟩ cs) :
    field ≠ [] ∧ ∀ c ∈ field, isSeparator c = false := by
  have hfinish : ∀ {reversed : List Char}, (∀ c ∈ reversed, isSeparator c = false) →
      field ∈ FieldScan.finish ⟨false, false, reversed⟩ →
      field ≠ [] ∧ ∀ c ∈ field, isSeparator c = false := by
    intro reversed hs hmem
    unfold FieldScan.finish at hmem
    split at hmem
    · cases hmem
    · rename_i hne
      rw [List.mem_singleton.mp hmem]
      refine ⟨fun hnil => hne ⟨List.reverse_eq_nil_iff.mp hnil, rfl⟩, fun c hc => ?_⟩
      exact hs c (List.mem_reverse.mp hc)
  induction cs generalizing reversed with
  | nil => exact hfinish hs h
  | cons c cs ih =>
    have hc : c ≠ '"' := fun hc => hquote (hc ▸ List.mem_cons_self)
    have hcs : '"' ∉ cs := fun hmem => hquote (List.mem_cons_of_mem c hmem)
    cases hsep : isSeparator c with
    | true =>
      rw [fieldsFrom_separator rfl hsep] at h
      obtain hmem | hmem := List.mem_append.mp h
      · exact hfinish hs hmem
      · exact ih hcs (fun d hd => absurd hd List.not_mem_nil) hmem
    | false =>
      rw [fieldsFrom_plain hc (.inl hsep)] at h
      exact ih hcs (List.forall_mem_cons.mpr ⟨hsep, hs⟩) h

theorem quote_not_mem_of_mem_fields {line field : String} (h : field ∈ fields line) :
    '"' ∉ field.toList := by
  obtain ⟨cs, hcs, rfl⟩ := List.mem_map.mp h
  rw [String.toList_ofList]
  exact quote_not_mem_of_mem_fieldsFrom (s := .start) List.not_mem_nil hcs

/-! ## Texts without separators -/

/-- Holds of a text in which no separator stands. -/
def Plain (text : String) : Prop := ' ' ∉ text.toList ∧ '\t' ∉ text.toList

instance (text : String) : Decidable (Plain text) := by
  unfold Plain; infer_instance

theorem plain_iff {text : String} : Plain text ↔ ∀ c ∈ text.toList, isSeparator c = false := by
  constructor
  · rintro ⟨hspace, htab⟩ c hc
    have hne : c ≠ ' ' ∧ c ≠ '\t' := ⟨fun e => hspace (e ▸ hc), fun e => htab (e ▸ hc)⟩
    simp [isSeparator, hne.1, hne.2]
  · intro h
    refine ⟨fun hspace => ?_, fun htab => ?_⟩
    · cases h ' ' hspace
    · cases h '\t' htab

@[simp] theorem plain_empty : Plain "" := by decide

/-- A text without quotes is read as pieces that are something and hold no separator. -/
theorem plain_of_mem_fields {text piece : String} (hquote : '"' ∉ text.toList)
    (h : piece ∈ fields text) : piece ≠ "" ∧ Plain piece := by
  obtain ⟨cs, hcs, rfl⟩ := List.mem_map.mp h
  have hstart : ∀ c ∈ ([] : List Char), isSeparator c = false := fun c hc => nomatch hc
  obtain ⟨hne, hplain⟩ := plain_of_mem_fieldsFrom hquote hstart hcs
  refine ⟨fun hempty => hne ?_, plain_iff.mpr ?_⟩
  · simpa using hempty
  · rwa [String.toList_ofList]

/-- A run without quotes and separators is one sub-field. -/
theorem fieldsFrom_of_plain {cs : List Char} (hquote : '"' ∉ cs)
    (hplain : ∀ c ∈ cs, isSeparator c = false) (hne : cs ≠ []) : fieldsFrom .start cs = [cs] := by
  have hscan := fieldsFrom_append_run (s := .start) hquote (.inr hplain) []
  rw [List.append_nil, fieldsFrom_nil] at hscan
  rw [hscan]
  simp [FieldScan.finish, FieldScan.start, hne]

/-- A text with neither quotes nor separators is read as it is, unless there is nothing of it. -/
theorem fields_of_plain {text : String} (hquote : '"' ∉ text.toList) (h : Plain text) :
    fields text = if text = "" then [] else [text] := by
  by_cases hempty : text = ""
  · rw [if_pos hempty, hempty, fields_empty]
  · have hne : text.toList ≠ [] := fun hnil => hempty (String.toList_eq_nil_iff.mp hnil)
    rw [if_neg hempty, fields, fieldsFrom_of_plain hquote (plain_iff.mp h) hne, List.map_singleton,
      String.ofList_toList]

/-! ## One sub-field -/

/-- Holds of a sub-field that is something, and that is put in quotes if there is need. -/
def Whole (field : String) : Prop :=
  field ≠ "" ∧ (' ' ∈ field.toList ∨ '\t' ∉ field.toList)

instance (field : String) : Decidable (Whole field) := by
  unfold Whole; infer_instance

/-- What stands between two quotes is one sub-field, also if there is nothing of it. -/
theorem fieldsFrom_between_quotes {cs : List Char} (hquote : '"' ∉ cs) :
    fieldsFrom .start ('"' :: (cs ++ ['"'])) = [cs] := by
  rw [fieldsFrom_quote, fieldsFrom_append_run hquote (.inl rfl), fieldsFrom_quote, fieldsFrom_nil]
  simp [FieldScan.finish, FieldScan.start]

/-- A sub-field with a space is read back from between its quotes. -/
theorem fields_quoted_of_space {field : String} (hquote : '"' ∉ field.toList)
    (hspace : ' ' ∈ field.toList) : fields (quoted field) = [field] := by
  have htext : (quoted field).toList = '"' :: (field.toList ++ ['"']) := by
    rw [quoted, if_pos hspace, String.toList_append, String.toList_append]
    rfl
  rw [fields, htext, fieldsFrom_between_quotes hquote, List.map_singleton, String.ofList_toList]

/-- **A sub-field that is whole is read back.** -/
theorem fields_quoted {field : String} (hquote : '"' ∉ field.toList) (h : Whole field) :
    fields (quoted field) = [field] := by
  by_cases hspace : ' ' ∈ field.toList
  · exact fields_quoted_of_space hquote hspace
  · have hplain : Plain field := ⟨hspace, h.2.resolve_left hspace⟩
    rw [quoted, if_neg hspace, fields_of_plain hquote hplain, if_neg h.1]

/-- **What is read from a sub-field is whole**, be it the sub-field itself or a piece of it. -/
theorem whole_of_mem_fields_quoted {field piece : String} (hquote : '"' ∉ field.toList)
    (h : piece ∈ fields (quoted field)) : Whole piece := by
  by_cases hspace : ' ' ∈ field.toList
  · rw [fields_quoted_of_space hquote hspace] at h
    obtain rfl := List.mem_singleton.mp h
    refine ⟨fun hempty => ?_, .inl hspace⟩
    rw [hempty] at hspace
    cases hspace
  · rw [quoted, if_neg hspace] at h
    obtain ⟨hne, hplain⟩ := plain_of_mem_fields hquote h
    exact ⟨hne, .inr hplain.2⟩

/-! ## A line of sub-fields -/

/-- **A line is read piece by piece**, if a quote that is opened in a piece is closed there. -/
theorem fields_intercalate {pieces : List String}
    (h : ∀ piece ∈ pieces, openBehind false piece.toList = false) :
    fields (String.intercalate " " pieces) = pieces.flatMap fields := by
  induction pieces with
  | nil => rfl
  | cons piece pieces ih =>
    obtain ⟨hpiece, hpieces⟩ := List.forall_mem_cons.mp h
    cases pieces with
    | nil => simp
    | cons next pieces =>
      have htext : (String.intercalate " " (piece :: next :: pieces)).toList =
          piece.toList ++ ' ' :: (String.intercalate " " (next :: pieces)).toList := by
        simp [String.toList_intercalate]
      have hspace : isSeparator ' ' = true := by decide
      have hcut := fieldsFrom_append_separator hspace (s := .start) hpiece
        (String.intercalate " " (next :: pieces)).toList
      rw [fields, htext, hcut, List.map_append, List.flatMap_cons, ← ih hpieces]
      rfl

/-- The line of the given sub-fields. -/
def written (xs : List String) : String := String.intercalate " " (xs.map quoted)

@[simp] theorem written_singleton (x : String) : written [x] = quoted x := by
  simp [written]

theorem written_cons_cons (x y : String) (ys : List String) :
    written (x :: y :: ys) = quoted x ++ " " ++ written (y :: ys) := by
  rw [← String.toList_inj]
  simp [written, String.toList_intercalate]

/-- Quotes around a sub-field are closed behind it. -/
theorem openBehind_quoted {field : String} (hquote : '"' ∉ field.toList) :
    openBehind false (quoted field).toList = false := by
  unfold quoted
  split
  · rw [String.toList_append, String.toList_append, openBehind_append, openBehind_append]
    have hopen : openBehind false "\"".toList = true := by decide
    have hclose : openBehind true "\"".toList = false := by decide
    rw [hopen, openBehind_of_not_mem hquote, hclose]
  · exact openBehind_of_not_mem hquote false

/-- **A line is read sub-field by sub-field.** -/
theorem fields_written_eq_flatMap {xs : List String} (hquote : ∀ x ∈ xs, '"' ∉ x.toList) :
    fields (written xs) = xs.flatMap fun x => fields (quoted x) := by
  have hclosed : ∀ piece ∈ xs.map quoted, openBehind false piece.toList = false :=
    List.forall_mem_map.mpr fun x hx => openBehind_quoted (hquote x hx)
  rw [written, fields_intercalate hclosed, List.flatMap_map]

/-- **Sub-fields that are whole are read back from their line.** -/
theorem fields_written {xs : List String} (hquote : ∀ x ∈ xs, '"' ∉ x.toList)
    (h : ∀ x ∈ xs, Whole x) : fields (written xs) = xs := by
  rw [fields_written_eq_flatMap hquote]
  have hsingle : xs.flatMap (fun x => fields (quoted x)) = xs.flatMap fun x => [x] :=
    List.flatMap_congr fun x hx => fields_quoted (hquote x hx) (h x hx)
  rw [hsingle, List.flatMap_singleton']

/-- **Sub-fields that are read back, with or without more behind them, are whole**: everything that
is read from a line is. -/
theorem whole_of_prefix_fields_written {xs : List String} (hquote : ∀ x ∈ xs, '"' ∉ x.toList)
    (h : xs <+: fields (written xs)) : ∀ x ∈ xs, Whole x := by
  intro x hx
  have hread : x ∈ fields (written xs) := h.subset hx
  rw [fields_written_eq_flatMap hquote] at hread
  obtain ⟨y, hy, hpiece⟩ := List.mem_flatMap.mp hread
  exact whole_of_mem_fields_quoted (hquote y hy) hpiece

end DepotClient.Text
