import Mathlib.Data.List.Basic
import DepotClient.Proofs.Text.Fields

/-! # The sub-fields of a line are its pieces

The sub-fields of a line are read in one scan. Here they are said in one go: a line is cut at every
separator with an even number of quotes in front of it (`pieces`), the pieces of which there is
nothing are dropped, and the quotes are taken out of the others. The scan keeps just what is needed of
the current piece (`FieldScan.behind`): whether a quote is open, whether there was any, and the rest.

* **`fieldsFrom_behind`** — from any place within a piece, the scan yields the sub-fields of the
  pieces from there on;
* **`fieldsFrom_join`** — sub-fields with separators around them, in quotes or bare, are read back;
* **`fields_exact`** — so both holds of every line. -/

namespace DepotClient.Text

/-! ## Pieces -/

/-- The characters of a text, each with the number of quotes in front of it, `n` of which stand in
front of the text. -/
def counted (n : Nat) (cs : List Char) : List (Char × Nat) :=
  cs.mapIdx fun i c => (c, n + (cs.take i).count '"')

/-- Holds of a separator with an even number of quotes in front of it. -/
def isCut (c : Char × Nat) : Bool := isSeparator c.1 && c.2 % 2 == 0

/-- The pieces of a text between the separators outside of quotes, if there are `n` quotes in front of
the text. -/
def piecesFrom (n : Nat) (cs : List Char) : List (List Char) :=
  (cut isCut (counted n cs)).map fun piece => piece.map Prod.fst

/-- The pieces of a line between the separators outside of quotes. -/
def pieces (line : String) : List (List Char) := piecesFrom 0 line.toList

/-- What is left of the pieces: those of which there is something, without their quotes. -/
def unquoted (pieces : List (List Char)) : List (List Char) :=
  (pieces.filter (· ≠ [])).map fun piece => piece.filter (· ≠ '"')

/-- The first piece adds a sub-field, unless there is nothing of it. -/
theorem unquoted_cons (piece : List Char) (pieces : List (List Char)) :
    unquoted (piece :: pieces) = unquoted [piece] ++ unquoted pieces := by
  simp only [unquoted, ← List.map_append, ← List.filter_append, List.singleton_append]

theorem counted_cons (n : Nat) (c : Char) (cs : List Char) :
    counted n (c :: cs) = (c, n) :: counted (if c = '"' then n + 1 else n) cs := by
  have hcount : ∀ i, n + ((c :: cs).take (i + 1)).count '"' =
      (if c = '"' then n + 1 else n) + (cs.take i).count '"' := by
    intro i
    rw [List.take_succ_cons, List.count_cons]
    by_cases hc : c = '"'
    · simp only [hc, beq_self_eq_true, if_true]
      omega
    · simp [hc]
  simp only [counted, List.mapIdx_cons, hcount]
  simp

/-- A separator outside of quotes ends a piece. -/
theorem piecesFrom_separator {n : Nat} {c : Char} (h : isSeparator c = true ∧ n % 2 = 0)
    (cs : List Char) : piecesFrom n (c :: cs) = [] :: piecesFrom n cs := by
  have hcut : isCut (c, n) = true := by simp [isCut, h]
  rw [piecesFrom, counted_cons, if_neg (ne_quote_of_isSeparator h.1), cut_cons, if_pos hcut]
  rfl

/-- Any other character belongs to the first piece. -/
theorem piecesFrom_cons {n : Nat} {c : Char} (h : ¬(isSeparator c = true ∧ n % 2 = 0))
    (cs : List Char) :
    piecesFrom n (c :: cs) = consFirst c (piecesFrom (if c = '"' then n + 1 else n) cs) := by
  have hkeep : ¬isCut (c, n) = true := by simpa [isCut] using h
  rw [piecesFrom, counted_cons, cut_cons, if_neg hkeep, piecesFrom]
  cases cut isCut (counted (if c = '"' then n + 1 else n) cs) <;> rfl

/-- A text goes into the first piece from its last character to its first. -/
theorem foldr_consFirst {α : Type} (as piece : List α) (pieces : List (List α)) :
    as.foldr consFirst (piece :: pieces) = (as ++ piece) :: pieces := by
  induction as with
  | nil => rfl
  | cons a as ih => rw [List.foldr_cons, ih]; rfl

/-! ## The scan of the pieces -/

/-- Where the scan stands behind a part of a piece, with `n` quotes in front of it on the line. -/
def FieldScan.behind (n : Nat) (part : List Char) : FieldScan where
  inQuotes := n % 2 == 1
  sawQuote := part.contains '"'
  reversed := (part.filter (· ≠ '"')).reverse

/-- A piece that ends is a sub-field, unless there is nothing of it. -/
theorem FieldScan.finish_behind (n : Nat) (part : List Char) :
    (behind n part).finish = unquoted [part] := by
  have hempty : ((behind n part).reversed = [] ∧ (behind n part).sawQuote = false) ↔ part = [] := by
    constructor
    · rintro ⟨hreversed, hquote⟩
      -- all that is in it are quotes, and there is none
      have hall : ∀ c ∈ part, c = '"' := by simpa [behind] using hreversed
      have hnone : '"' ∉ part := by simpa [behind] using hquote
      exact List.eq_nil_iff_forall_not_mem.mpr fun c hc => hnone (hall c hc ▸ hc)
    · rintro rfl
      exact ⟨rfl, rfl⟩
  rw [finish]
  by_cases hpart : part = []
  · rw [if_pos (hempty.mpr hpart), hpart]
    rfl
  · rw [if_neg (mt hempty.mp hpart)]
    simp [unquoted, hpart, behind]

theorem FieldScan.behind_append_quote (n : Nat) (part : List Char) :
    behind (n + 1) (part ++ ['"']) =
      ⟨!(behind n part).inQuotes, true, (behind n part).reversed⟩ := by
  have hflip : ((n + 1) % 2 == 1) = !(n % 2 == 1) := by
    rw [Bool.eq_iff_iff]
    simp
    omega
  simp [behind, hflip]

theorem FieldScan.behind_append_of_ne (n : Nat) (part : List Char) {c : Char} (h : c ≠ '"') :
    behind n (part ++ [c]) =
      ⟨(behind n part).inQuotes, (behind n part).sawQuote, c :: (behind n part).reversed⟩ := by
  simp [behind, h, Ne.symm h]

/-- **The scan yields the sub-fields of the pieces.** The induction is on the rest of the line; the
part of the current piece that lies behind grows until the piece ends. -/
theorem fieldsFrom_behind (n : Nat) (part cs : List Char) :
    fieldsFrom (.behind n part) cs = unquoted (part.foldr consFirst (piecesFrom n cs)) := by
  induction cs generalizing n part with
  | nil =>
    have hpieces : piecesFrom n [] = [[]] := rfl
    rw [fieldsFrom_nil, FieldScan.finish_behind, hpieces, foldr_consFirst, List.append_nil]
  | cons c cs ih =>
    have hgrown : ∀ rest, part.foldr consFirst (consFirst c rest) =
        (part ++ [c]).foldr consFirst rest := by
      intro rest
      rw [List.foldr_append]
      rfl
    by_cases hcut : isSeparator c = true ∧ n % 2 = 0
    · have hopen : (FieldScan.behind n part).inQuotes = false := by simp [FieldScan.behind, hcut.2]
      have hstart : FieldScan.start = .behind n [] := by
        simp [FieldScan.start, FieldScan.behind, hcut.2]
      rw [fieldsFrom_separator hopen hcut.1, FieldScan.finish_behind, hstart, ih,
        piecesFrom_separator hcut, foldr_consFirst, List.append_nil, unquoted_cons part (piecesFrom n cs)]
      rfl
    · rw [piecesFrom_cons hcut, hgrown]
      by_cases hquote : c = '"'
      · rw [if_pos hquote, hquote, fieldsFrom_quote, ← FieldScan.behind_append_quote, ih]
      · have hplain : isSeparator c = false ∨ (FieldScan.behind n part).inQuotes = true := by
          refine (Bool.eq_false_or_eq_true (isSeparator c)).symm.imp_right fun hsep => ?_
          have hodd : n % 2 = 1 := by
            have := mt (And.intro hsep) hcut
            omega
          simp [FieldScan.behind, hodd]
        rw [if_neg hquote, fieldsFrom_plain hquote hplain,
          ← FieldScan.behind_append_of_ne n part hquote, ih]

/-- **Sub-fields are the pieces of their line**, without those of which there is nothing, and without
the quotes. -/
theorem fields_eq_unquoted (line : String) :
    fields line = (unquoted (pieces line)).map String.ofList := by
  have hstart : FieldScan.start = .behind 0 [] := rfl
  rw [fields, hstart, fieldsFrom_behind]
  rfl

/-! ## Lines written in any way -/

/-- A sub-field as it can stand in a line. -/
structure WrittenField where
  /-- The separators in front of it. -/
  gap : String
  /-- The sub-field. -/
  field : String
  /-- It stands in the line without quotes around it. -/
  isBare : Bool
  /-- There are only separators in front of it. -/
  isSeparator_gap : gap.toList.all isSeparator = true := by decide
  /-- No quote belongs to it. -/
  quote_not_mem : '"' ∉ field.toList := by decide
  /-- It has quotes around it if it is empty or holds a separator. -/
  of_isBare : isBare = true → field ≠ "" ∧ Plain field := by decide

namespace WrittenField

/-- The sub-field in its quotes, or bare. -/
def shown (w : WrittenField) : List Char :=
  if w.isBare then w.field.toList else '"' :: (w.field.toList ++ ['"'])

/-- The text of the sub-field with the separators in front of it. -/
def text (w : WrittenField) : String := w.gap ++ String.ofList w.shown

theorem isSeparator_of_mem_gap (w : WrittenField) : ∀ c ∈ w.gap.toList, isSeparator c = true :=
  List.all_eq_true.mp w.isSeparator_gap

/-- In a line of sub-fields the first one stands in front, behind its gap. -/
theorem toList_join_cons (w : WrittenField) (ws : List WrittenField) (rest : List Char) :
    (String.join ((w :: ws).map text)).toList ++ rest =
      w.gap.toList ++ (w.shown ++ ((String.join (ws.map text)).toList ++ rest)) := by
  simp [text]

theorem fieldsFrom_shown (w : WrittenField) : fieldsFrom .start w.shown = [w.field.toList] := by
  rw [shown]
  cases hbare : w.isBare with
  | true =>
    obtain ⟨hne, hplain⟩ := w.of_isBare hbare
    exact fieldsFrom_of_plain w.quote_not_mem (plain_iff.mp hplain)
      fun hnil => hne (String.toList_eq_nil_iff.mp hnil)
  | false => exact fieldsFrom_between_quotes w.quote_not_mem

/-- Quotes around a sub-field are closed behind it. -/
theorem openBehind_shown (w : WrittenField) : openBehind false w.shown = false := by
  have hfield := openBehind_of_not_mem w.quote_not_mem
  rw [shown]
  cases w.isBare with
  | true => exact hfield false
  | false =>
    have htext : '"' :: (w.field.toList ++ ['"']) = ['"'] ++ (w.field.toList ++ ['"']) := rfl
    rw [if_neg (by decide), htext, openBehind_append, openBehind_append, hfield]
    rfl

end WrittenField

/-- Separators in front of a line are skipped. -/
theorem fieldsFrom_gap_append {gap : List Char} (h : ∀ c ∈ gap, isSeparator c = true)
    (cs : List Char) : fieldsFrom .start (gap ++ cs) = fieldsFrom .start cs := by
  induction gap with
  | nil => rfl
  | cons c gap ih =>
    obtain ⟨hc, hgap⟩ := List.forall_mem_cons.mp h
    rw [List.cons_append, fieldsFrom_separator rfl hc, ih hgap]
    rfl

/-- A line is read in two if its quotes are closed where a separator follows, or nothing. -/
theorem fieldsFrom_append_of_head? {cs rest : List Char} (hclosed : openBehind false cs = false)
    (hrest : ∀ c ∈ rest.head?, isSeparator c = true) :
    fieldsFrom .start (cs ++ rest) = fieldsFrom .start cs ++ fieldsFrom .start rest := by
  cases rest with
  | nil => simp [FieldScan.finish, FieldScan.start]
  | cons c rest =>
    have hc : isSeparator c = true := hrest c rfl
    rw [fieldsFrom_append_separator hc (s := .start) hclosed, fieldsFrom_separator rfl hc]
    rfl

/-- A quote that is never closed makes the rest of the line one sub-field. -/
theorem fieldsFrom_open_quote {cs : List Char} (hquote : '"' ∉ cs) :
    fieldsFrom .start ('"' :: cs) = [cs] := by
  have hscan := fieldsFrom_append_run (s := ⟨true, true, []⟩) hquote (.inl rfl) []
  rw [List.append_nil, fieldsFrom_nil] at hscan
  rw [fieldsFrom_quote]
  exact hscan.trans (by simp [FieldScan.finish])

/-- What stands behind a gap has a separator in front of it. -/
theorem isSeparator_head?_append {gap : List Char} (hne : gap ≠ [])
    (h : ∀ c ∈ gap, isSeparator c = true) (cs : List Char) :
    ∀ c ∈ (gap ++ cs).head?, isSeparator c = true := by
  rw [List.head?_append_of_ne_nil _ hne]
  exact fun c hc => h c (List.mem_of_mem_head? hc)

/-- **Sub-fields with separators in front of them are read back**, and then the rest of the line, if a
separator begins it. Between two sub-fields there must be a separator. -/
theorem fieldsFrom_join {xs : List WrittenField} (hgaps : ∀ w ∈ xs.tail, w.gap ≠ "")
    {rest : List Char} (hrest : xs ≠ [] → ∀ c ∈ rest.head?, isSeparator c = true) :
    fieldsFrom .start ((String.join (xs.map WrittenField.text)).toList ++ rest) =
      xs.map (fun w => w.field.toList) ++ fieldsFrom .start rest := by
  induction xs with
  | nil => simp
  | cons w ws ih =>
    have htext := WrittenField.toList_join_cons w ws rest
    -- behind the sub-field comes the gap of the next one, or else the rest
    have hhead : ∀ c ∈ ((String.join (ws.map WrittenField.text)).toList ++ rest).head?,
        isSeparator c = true := by
      cases ws with
      | nil => simpa using hrest (List.cons_ne_nil w [])
      | cons v vs =>
        have hv : v.gap.toList ≠ [] := fun hnil =>
          hgaps v List.mem_cons_self (String.toList_eq_nil_iff.mp hnil)
        rw [WrittenField.toList_join_cons]
        exact isSeparator_head?_append hv v.isSeparator_of_mem_gap _
    have hws : ∀ v ∈ ws.tail, v.gap ≠ "" := fun v hv => hgaps v (List.mem_of_mem_tail hv)
    rw [htext, fieldsFrom_gap_append w.isSeparator_of_mem_gap,
      fieldsFrom_append_of_head? w.openBehind_shown hhead, w.fieldsFrom_shown,
      ih hws fun _ => hrest (List.cons_ne_nil w ws)]
    rfl

/-- **Sub-fields are read exactly.** They are the pieces of the line between separators with an even
number of quotes in front of them, without the pieces of which there is nothing, and without the
quotes. So any list of sub-fields without quotes is read back, however they are spaced, if each stands
in quotes or else is something and holds no separator; and a quote that is never closed makes
the rest of the line one sub-field more. -/
theorem fields_exact :
    (∀ line : String, fields line =
      ((pieces line).filter (· ≠ [])).map fun piece => String.ofList (piece.filter (· ≠ '"'))) ∧
    ∀ xs : List WrittenField, (∀ w ∈ xs.tail, w.gap ≠ "") → ∀ gap : String,
      (∀ c ∈ gap.toList, isSeparator c = true) →
        fields (String.join (xs.map WrittenField.text) ++ gap) = xs.map WrittenField.field ∧
        ∀ rest : String, '"' ∉ rest.toList → (xs ≠ [] → gap ≠ "") →
          fields (String.join (xs.map WrittenField.text) ++ gap ++ "\"" ++ rest) =
            xs.map WrittenField.field ++ [rest] := by
  refine ⟨fun line => ?_, fun xs hxs gap hgap => ⟨?_, fun rest hrest hne => ?_⟩⟩
  · rw [fields_eq_unquoted, unquoted, List.map_map]
    rfl
  · have hhead : ∀ c ∈ gap.toList.head?, isSeparator c = true := fun c hc =>
      hgap c (List.mem_of_mem_head? hc)
    have hblank : fieldsFrom .start gap.toList = [] := by
      have hskip := fieldsFrom_gap_append hgap []
      rwa [List.append_nil] at hskip
    rw [fields, String.toList_append, fieldsFrom_join hxs fun _ => hhead, hblank]
    simp
  · have htext : (String.join (xs.map WrittenField.text) ++ gap ++ "\"" ++ rest).toList =
        (String.join (xs.map WrittenField.text)).toList ++ (gap.toList ++ '"' :: rest.toList) := by
      simp
    have hhead : xs ≠ [] → ∀ c ∈ (gap.toList ++ '"' :: rest.toList).head?, isSeparator c = true := by
      intro hxs
      have hgapne : gap.toList ≠ [] := fun hnil => hne hxs (String.toList_eq_nil_iff.mp hnil)
      exact isSeparator_head?_append hgapne hgap _
    rw [fields, htext, fieldsFrom_join hxs hhead, fieldsFrom_gap_append hgap,
      fieldsFrom_open_quote hrest]
    simp

/-- A bare sub-field with a tab in front of it, an empty one in quotes, one with a space in quotes, and
behind them a quote that is never closed. -/
theorem fields_of_open_quote :
    fields "\timport \"\"  \t\"a b\" \"c  d" = ["import", "", "a b", "c  d"] := by
  have hread := (fields_exact.2
    [{ gap := "\t", field := "import", isBare := true }, { gap := " ", field := "", isBare := false },
      { gap := "  \t", field := "a b", isBare := false }] (by simp) " " (by simp [isSeparator])).2
    "c  d" (by decide) (by decide)
  exact hread

end DepotClient.Text
