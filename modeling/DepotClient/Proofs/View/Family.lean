import DepotClient.Proofs.Record.Family
import DepotClient.Proofs.View.Line
import DepotClient.View.Basic

/-! # What a view takes from its record

A view field is read from two families side by side: its lines, up to the first gap, and the
comments that stand at the same indices. Nothing else in the record has a part in it. A view that is
written into the two families comes back just if each of its entries is `Printable`.

* **`viewOf_congr`** — records that agree on the two families have the same view;
* **`ViewLine.ofLine?_eq_some_self_iff`** — a line and its comment give back just the printable
  entries;
* **`viewOf_eq_self_iff`** — and so do the two families. -/

namespace DepotClient

variable {r s : Record} {field : String}

/-- Only the comments at the indices of the lines are looked up. -/
theorem viewFrom_congr
    (hcomment : ∀ i, r.get? (familyKey (commentFamily field) i) =
      s.get? (familyKey (commentFamily field) i)) (i : Nat) (lines : List String) :
    viewFrom r field i lines = viewFrom s field i lines := by
  induction lines generalizing i with
  | nil => rfl
  | cons line lines ih => rw [viewFrom, viewFrom, hcomment i, ih]

/-- **Records that agree on the lines of a view and on their comments have the same view.** -/
theorem viewOf_congr (hline : ∀ i, r.get? (familyKey field i) = s.get? (familyKey field i))
    (hcomment : ∀ i, r.get? (familyKey (commentFamily field) i) =
      s.get? (familyKey (commentFamily field) i)) :
    viewOf r field = viewOf s field := by
  rw [viewOf, viewOf, Record.family_congr hline]
  exact viewFrom_congr hcomment 0 _

/-! ## One line with its comment -/

namespace ViewLine

/-- Holds of the entries that a line with a comment beside it can stand for. -/
structure Printable (e : ViewLine) : Prop where
  /-- The left path holds no quote. -/
  quote_not_mem_left : '"' ∉ e.left.toList
  /-- The right path holds no quote. -/
  quote_not_mem_right : ∀ right ∈ e.right, '"' ∉ right.toList
  /-- The comment has no blanks at its end. -/
  trimEnd_comment : ∀ comment ∈ e.comment, Text.trimEnd comment.toList = comment.toList
  /-- The first sub-field tells the kind. -/
  shaped : e.Shaped
  /-- No sub-field is lost or falls apart; an entry without any has a comment instead. -/
  whole : (e.subFields = [""] ∧ e.comment ≠ none) ∨ ∀ x ∈ e.subFields, Text.Whole x

theorem printable_iff (e : ViewLine) :
    e.Printable ↔ '"' ∉ e.left.toList ∧ (∀ right ∈ e.right, '"' ∉ right.toList) ∧
      (∀ comment ∈ e.comment, Text.trimEnd comment.toList = comment.toList) ∧ e.Shaped ∧
      ((e.subFields = [""] ∧ e.comment ≠ none) ∨ ∀ x ∈ e.subFields, Text.Whole x) :=
  ⟨fun h => ⟨h.1, h.2, h.3, h.4, h.5⟩, fun h => ⟨h.1, h.2.1, h.2.2.1, h.2.2.2.1, h.2.2.2.2⟩⟩

instance (e : ViewLine) : Decidable e.Printable := decidable_of_iff' _ e.printable_iff

/-- A line and a comment make up the entry whose parts are read from the two. -/
theorem withComment_parse_eq_iff (e : ViewLine) (line : String) (comment : Option String) :
    { parse line with comment } = e ↔ parse line = e.bare ∧ comment = e.comment := by
  constructor
  · rintro rfl
    exact ⟨(bare_ofFields _).symm, rfl⟩
  · rintro ⟨hline, rfl⟩
    rw [hline]
    rfl

/-- A comment is kept as it is if there are no blanks at its end. -/
theorem map_trimEnd_eq_iff (comment : Option String) :
    (comment.map fun c => String.ofList (Text.trimEnd c.toList)) = comment ↔
      ∀ c ∈ comment, Text.trimEnd c.toList = c.toList := by
  cases comment with
  | none => simp
  | some c =>
    rw [Option.map_some, Option.some.injEq, ← String.toList_inj, String.toList_ofList]
    exact ⟨fun h d hd => Option.some.inj hd ▸ h, fun h => h c rfl⟩

/-- **A line and its comment give back just the printable entries.** -/
theorem ofLine?_eq_some_self_iff (e : ViewLine) :
    ofLine? e.bare.text e.comment = some e ↔ e.Printable := by
  have hline := e.parse_text_bare_iff
  rw [e.quote_not_mem_subFields_iff] at hline
  unfold ofLine?
  split
  · -- nothing is kept of a line without text that has no comment
    rename_i hnothing
    refine ⟨(nomatch ·), fun h => ?_⟩
    obtain ⟨-, hcomment⟩ | hwhole := h.whole
    · exact absurd hnothing.2 hcomment
    · have hquote := e.quote_not_mem_subFields_iff.mpr
        ⟨h.quote_not_mem_left, h.quote_not_mem_right⟩
      have hread := Text.fields_written hquote hwhole
      rw [← text_bare, hnothing.1, Text.fields_empty] at hread
      exact absurd hread.symm e.subFields_ne_nil
  · rename_i hsome
    rw [Option.some.injEq, withComment_parse_eq_iff, hline, map_trimEnd_eq_iff]
    constructor
    · rintro ⟨⟨hshaped, hquote, hwhole⟩, hcomment⟩
      refine ⟨hquote.1, hquote.2, hcomment, hshaped, hwhole.imp_left fun hempty => ⟨hempty, ?_⟩⟩
      intro hnone
      refine hsome ⟨?_, hnone⟩
      rw [text_bare, hempty]
      decide
    · intro h
      exact ⟨⟨h.shaped, ⟨h.quote_not_mem_left, h.quote_not_mem_right⟩, h.whole.imp_left And.left⟩,
        h.trimEnd_comment⟩

end ViewLine

/-! ## The whole view -/

/-- A view is read line by line if its lines and comments stand in the record. -/
theorem viewFrom_eq_filterMap {i : Nat} {view : List ViewLine}
    (hcomment : ∀ j, r.get? (familyKey (commentFamily field) (i + j)) =
      view[j]?.bind ViewLine.comment) :
    viewFrom r field i (view.map fun e => e.bare.text) =
      view.filterMap fun e => ViewLine.ofLine? e.bare.text e.comment := by
  induction view generalizing i with
  | nil => rfl
  | cons e view ih =>
    have hfirst : r.get? (familyKey (commentFamily field) i) = e.comment := hcomment 0
    have hrest : ∀ j, r.get? (familyKey (commentFamily field) (i + 1 + j)) =
        view[j]?.bind ViewLine.comment := by
      intro j
      rw [Nat.add_assoc, Nat.add_comm 1 j]
      exact hcomment (j + 1)
    rw [List.map_cons, viewFrom, hfirst, ih hrest, List.filterMap_cons]
    cases ViewLine.ofLine? e.bare.text e.comment <;> rfl

/-- A list from which a partial map makes itself is left alone element by element. -/
theorem filterMap_eq_self_iff {α : Type} {f : α → Option α} {xs : List α} :
    xs.filterMap f = xs ↔ ∀ x ∈ xs, f x = some x := by
  induction xs with
  | nil => simp
  | cons x xs ih =>
    rw [List.forall_mem_cons, ← ih, List.filterMap_cons]
    cases hx : f x with
    | none =>
      -- the result would be too short
      refine ⟨fun h => ?_, fun h => nomatch h.1⟩
      have hle := List.length_filterMap_le f xs
      have hlen : (xs.filterMap f).length = xs.length + 1 := congrArg List.length h
      omega
    | some y => simp

/-- **A view comes back from its lines and comments just if all of its entries are printable.** -/
theorem viewOf_eq_self_iff {view : List ViewLine}
    (hline : ∀ i, r.get? (familyKey field i) = view[i]?.map fun e => e.bare.text)
    (hcomment : ∀ i, r.get? (familyKey (commentFamily field) i) =
      view[i]?.bind ViewLine.comment) :
    viewOf r field = view ↔ ∀ e ∈ view, e.Printable := by
  have hfamily : r.family field = view.map fun e => e.bare.text :=
    Record.family_eq_of_get? fun i => by rw [hline i, List.getElem?_map]
  have hread : viewOf r field =
      view.filterMap fun e => ViewLine.ofLine? e.bare.text e.comment := by
    rw [viewOf, hfamily]
    exact viewFrom_eq_filterMap fun j => by rw [Nat.zero_add]; exact hcomment j
  rw [hread, filterMap_eq_self_iff]
  exact forall₂_congr fun e _ => e.ofLine?_eq_some_self_iff

end DepotClient
