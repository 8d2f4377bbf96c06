import DepotClient.Proofs.View.Family

/-! # Blank lines of a view

A line of a view that is empty and has no comment leaves no entry. So a view does not change when
such a line is put anywhere among its lines, as long as the lines behind it move on by one and each
takes its comment along. Two families of keys are moved for that, and nothing else is touched.

* **`Record.moveUp`** — a record in which the values of a family have moved on by one from some
  index on, which leaves that index free;
* **`BlankLineAt`** — relates a record to one with a blank line more; there is always one
  (`withBlankLine`);
* **`viewOf_eq_filterMap`** — a view is made line by line, from each index in front of the first
  missing one and its comment;
* **`viewOf_exact`** — so blank lines and what stands behind the first missing index leave no trace,
  and each entry has the comment of its own line. -/

namespace DepotClient

/-! ## Moving a family on -/

namespace Record

variable {r : Record} {name key : String} {k i : Nat}

/-- The index of a key in a family, if it is a key of it. -/
def indexIn? (name key : String) : Option Nat :=
  (Numeral.natural? (key.toList.drop name.toList.length)).filter fun i => familyKey name i = key

theorem indexIn?_eq_some_iff : indexIn? name key = some i ↔ familyKey name i = key := by
  rw [indexIn?, Option.filter_eq_some_iff, decide_eq_true_iff, and_iff_right_iff_imp]
  rintro rfl
  rw [familyKey, String.toList_append, List.drop_left, toList_indexText, Numeral.natural?_digits]

/-- The key to which a key of a family moves: the next one from an index on, and itself in front of
it. Other keys stay. -/
def movedKey (name : String) (k : Nat) (key : String) : String :=
  match indexIn? name key with
  | some i => if k ≤ i then familyKey name (i + 1) else key
  | none => key

theorem movedKey_familyKey (name : String) (k i : Nat) :
    movedKey name k (familyKey name i) = familyKey name (if k ≤ i then i + 1 else i) := by
  rw [movedKey, indexIn?_eq_some_iff.mpr rfl]
  change (if k ≤ i then _ else _) = _
  split <;> rfl

theorem movedKey_of_ne (k : Nat) (h : ∀ i, key ≠ familyKey name i) :
    movedKey name k key = key := by
  have hnone : indexIn? name key = none :=
    Option.eq_none_iff_forall_ne_some.mpr fun i hi => h i (indexIn?_eq_some_iff.mp hi).symm
  rw [movedKey, hnone]

/-- The record in which the values of a family have moved on by one from an index on. -/
def moveUp (r : Record) (name : String) (k : Nat) : Record :=
  .ofList (r.toList.map fun field => (movedKey name k field.1, field.2))

/-- What is found under a key has moved there from the one key that moves to it. -/
theorem get?_moveUp (source? : Option String)
    (h : ∀ old, movedKey name k old = key ↔ source? = some old) :
    (r.moveUp name k).get? key = source?.bind r.get? := by
  refine get?_ofList_eq fun value => ?_
  have htoList : ∀ old, (old, value) ∈ r.toList ↔ r.get? old = some value := fun old =>
    Std.ExtTreeMap.mem_toList_iff_getElem?_eq_some
  rw [List.mem_map, Option.bind_eq_some_iff]
  constructor
  · rintro ⟨⟨old, v⟩, hmem, heq⟩
    obtain ⟨hkey, rfl⟩ := Prod.mk.inj heq
    exact ⟨old, (h old).mp hkey, (htoList old).mp hmem⟩
  · rintro ⟨old, hold, hvalue⟩
    exact ⟨(old, value), (htoList old).mpr hvalue, by rw [(h old).mpr hold]⟩

/-- A key moves to a key of the family just if it is one itself and its index moves there. -/
theorem movedKey_eq_familyKey_iff {old : String} {j : Nat} :
    movedKey name k old = familyKey name j ↔
      ∃ i, familyKey name i = old ∧ (if k ≤ i then i + 1 else i) = j := by
  cases hindex : indexIn? name old with
  | some i =>
    obtain rfl := indexIn?_eq_some_iff.mp hindex
    rw [movedKey_familyKey, familyKey_inj]
    simp
  | none =>
    have hne : ∀ i, old ≠ familyKey name i := by
      rintro i rfl
      rw [indexIn?_eq_some_iff.mpr rfl] at hindex
      cases hindex
    rw [movedKey_of_ne k hne]
    exact ⟨fun h => absurd h (hne j), fun ⟨i, hi, _⟩ => absurd hi.symm (hne i)⟩

/-- A value of the family is found where its index has moved. -/
theorem get?_moveUp_family (r : Record) (name : String) (k i : Nat) :
    (r.moveUp name k).get? (familyKey name (if k ≤ i then i + 1 else i)) =
      r.get? (familyKey name i) := by
  refine get?_moveUp (some (familyKey name i)) fun old => ?_
  rw [movedKey_eq_familyKey_iff, Option.some.injEq]
  constructor
  · rintro ⟨j, rfl, hj⟩
    rw [familyKey_inj]
    split at hj <;> split at hj <;> omega
  · rintro rfl
    exact ⟨i, rfl, rfl⟩

theorem get?_moveUp_of_lt (h : i < k) :
    (r.moveUp name k).get? (familyKey name i) = r.get? (familyKey name i) := by
  rw [← get?_moveUp_family r name k i, if_neg (Nat.not_le_of_lt h)]

/-- The index from which on values have moved is free. -/
theorem get?_moveUp_self : (r.moveUp name k).get? (familyKey name k) = none := by
  refine get?_moveUp none fun old => ?_
  rw [movedKey_eq_familyKey_iff]
  refine ⟨?_, nofun⟩
  rintro ⟨j, -, hj⟩
  split at hj <;> omega

theorem get?_moveUp_succ (h : k ≤ i) :
    (r.moveUp name k).get? (familyKey name (i + 1)) = r.get? (familyKey name i) := by
  rw [← get?_moveUp_family r name k i, if_pos h]

theorem get?_moveUp_of_ne (h : ∀ i, key ≠ familyKey name i) :
    (r.moveUp name k).get? key = r.get? key := by
  refine get?_moveUp (some key) fun old => ?_
  rw [Option.some.injEq]
  constructor
  · intro hold
    cases hindex : indexIn? name old with
    | some i =>
      -- a key of the family moves to one of the family
      rw [← indexIn?_eq_some_iff.mp hindex, movedKey_familyKey] at hold
      exact absurd hold.symm (h _)
    | none =>
      rw [movedKey, hindex] at hold
      exact hold.symm
  · rintro rfl
    exact movedKey_of_ne k h

end Record

/-! ## A blank line more -/

/-- The comments of a view have keys of their own. -/
theorem familyKey_commentFamily_ne (field : String) (i j : Nat) :
    familyKey (commentFamily field) i ≠ familyKey field j := by
  intro h
  have hkeys := congrArg String.toList h
  simp only [familyKey, commentFamily, String.toList_append, List.append_assoc,
    List.append_cancel_left_eq, toList_indexText] at hkeys
  -- a letter would have to be the first digit of an index
  have hmem : 'C' ∈ Numeral.digits j := by
    rw [← hkeys]
    exact List.mem_append_left _ (by decide)
  have hdigit := Numeral.isDigit_of_mem_digits hmem
  cases hdigit

/-- Relates a record to one in which a view has a blank line more, at an index from which on its
lines and their comments have moved on by one. -/
structure BlankLineAt (r : Record) (field : String) (k : Nat) (s : Record) : Prop where
  /-- The lines in front of it stay, with their comments. -/
  before : ∀ i < k, s.get? (familyKey field i) = r.get? (familyKey field i) ∧
    s.get? (familyKey (commentFamily field) i) = r.get? (familyKey (commentFamily field) i)
  /-- The line is empty. -/
  line : s.get? (familyKey field k) = some ""
  /-- It has no comment. -/
  comment : s.get? (familyKey (commentFamily field) k) = none
  /-- The lines behind it have moved, with their comments. -/
  behind : ∀ i, k ≤ i → s.get? (familyKey field (i + 1)) = r.get? (familyKey field i) ∧
    s.get? (familyKey (commentFamily field) (i + 1)) = r.get? (familyKey (commentFamily field) i)
  /-- All other keys stay. -/
  others : ∀ key, (∀ i, key ≠ familyKey field i ∧ key ≠ familyKey (commentFamily field) i) →
    s.get? key = r.get? key

/-- The record with a blank line more at an index. -/
def withBlankLine (r : Record) (field : String) (k : Nat) : Record :=
  ((r.moveUp (commentFamily field) k).moveUp field k).insert (familyKey field k) ""

/-- **A blank line can be put anywhere.** -/
theorem blankLineAt_withBlankLine (r : Record) (field : String) (k : Nat) :
    BlankLineAt r field k (withBlankLine r field k) := by
  have hline : ∀ i j, familyKey field i ≠ familyKey (commentFamily field) j :=
    fun i j h => familyKey_commentFamily_ne field j i h.symm
  -- the line is put where lines have made room, so a key beside it has what was moved there
  have hbeside : ∀ i, i ≠ k → (withBlankLine r field k).get? (familyKey field i) =
      ((r.moveUp (commentFamily field) k).moveUp field k).get? (familyKey field i) := by
    intro i hi
    exact Record.get?_insert_of_ne _ _ fun h => hi (familyKey_inj.mp h).symm
  have hcomment : ∀ i, (withBlankLine r field k).get? (familyKey (commentFamily field) i) =
      (r.moveUp (commentFamily field) k).get? (familyKey (commentFamily field) i) := by
    intro i
    rw [withBlankLine, Record.get?_insert_of_ne _ _ (hline k i),
      Record.get?_moveUp_of_ne fun j => familyKey_commentFamily_ne field i j]
  constructor
  · intro i hi
    rw [hbeside i (Nat.ne_of_lt hi), Record.get?_moveUp_of_lt hi,
      Record.get?_moveUp_of_ne (hline i), hcomment, Record.get?_moveUp_of_lt hi]
    exact ⟨rfl, rfl⟩
  · exact Record.get?_insert_self _ _ _
  · rw [hcomment, Record.get?_moveUp_self]
  · intro i hi
    rw [hbeside (i + 1) (by omega), Record.get?_moveUp_succ hi,
      Record.get?_moveUp_of_ne (hline i), hcomment, Record.get?_moveUp_succ hi]
    exact ⟨rfl, rfl⟩
  · intro key hkey
    rw [withBlankLine, Record.get?_insert_of_ne _ _ (hkey k).1.symm,
      Record.get?_moveUp_of_ne fun i => (hkey i).1, Record.get?_moveUp_of_ne fun i => (hkey i).2]

variable {r s : Record} {field : String} {n k : Nat}

/-- The family of lines ends one later. -/
theorem BlankLineAt.endsAt (h : BlankLineAt r field k s) (hr : r.EndsAt field n) (hk : k ≤ n) :
    s.EndsAt field (n + 1) where
  present i hi := by
    rw [Record.contains]
    obtain hlt | rfl | hgt := Nat.lt_trichotomy i k
    · rw [(h.before i hlt).1]
      exact hr.present i (Nat.lt_of_lt_of_le hlt hk)
    · rw [h.line]
      rfl
    · obtain ⟨j, rfl⟩ : ∃ j, i = j + 1 := ⟨i - 1, by omega⟩
      rw [(h.behind j (Nat.le_of_lt_succ hgt)).1]
      exact hr.present j (Nat.lt_of_succ_lt_succ hi)
  missing := by
    rw [(h.behind n hk).1]
    exact hr.missing

/-! ## A view line by line -/

/-- The entry of the line at an index, if it leaves one. -/
def entryAt? (r : Record) (field : String) (i : Nat) : Option ViewLine :=
  ViewLine.ofLine? (r.get (familyKey field i)) (r.get? (familyKey (commentFamily field) i))

theorem viewFrom_range' (r : Record) (field : String) (i m : Nat) :
    viewFrom r field i ((List.range' i m).map fun j => r.get (familyKey field j)) =
      (List.range' i m).filterMap (entryAt? r field) := by
  induction m generalizing i with
  | zero => rfl
  | succ m ih =>
    rw [List.range'_succ, List.map_cons, viewFrom, ih, List.filterMap_cons]
    cases hentry : entryAt? r field i with
    | none => rw [entryAt?] at hentry; rw [hentry]; rfl
    | some e => rw [entryAt?] at hentry; rw [hentry]; rfl

/-- **A view is made line by line**, from the indices in front of the first missing one. -/
theorem viewOf_eq_filterMap (h : r.EndsAt field n) :
    viewOf r field = (List.range n).filterMap (entryAt? r field) := by
  rw [viewOf, h.family_eq, List.range_eq_range', viewFrom_range']

theorem entryAt?_congr {i j : Nat} (hline : s.get? (familyKey field j) = r.get? (familyKey field i))
    (hcomment : s.get? (familyKey (commentFamily field) j) =
      r.get? (familyKey (commentFamily field) i)) :
    entryAt? s field j = entryAt? r field i := by
  rw [entryAt?, entryAt?, Record.get, Record.get, hline, hcomment]

/-- The indices in front of one and those from there on. -/
theorem range_eq_append (h : k ≤ n) : List.range n = List.range k ++ List.range' k (n - k) := by
  have hsplit := List.range'_append_1 (s := 0) (m := k) (n := n - k)
  rw [Nat.zero_add, Nat.add_sub_cancel' h] at hsplit
  rw [List.range_eq_range', List.range_eq_range', hsplit]

/-- **A blank line leaves no trace.** -/
theorem BlankLineAt.viewOf_eq (h : BlankLineAt r field k s) (hr : r.EndsAt field n) (hk : k ≤ n) :
    viewOf s field = viewOf r field := by
  have hblank : entryAt? s field k = none := by
    rw [entryAt?, Record.get, h.line, h.comment]
    rfl
  have hbefore : ∀ i ∈ List.range k, entryAt? s field i = entryAt? r field i := by
    intro i hi
    have hlt : i < k := List.mem_range.mp hi
    exact entryAt?_congr (h.before i hlt).1 (h.before i hlt).2
  have hbehind : ∀ i ∈ List.range' k (n - k), entryAt? s field (1 + i) = entryAt? r field i := by
    intro i hi
    have hle : k ≤ i := (List.mem_range'_1.mp hi).1
    rw [Nat.add_comm]
    exact entryAt?_congr (h.behind i hle).1 (h.behind i hle).2
  -- the indices in front of the blank line, its own, and those behind it
  have hindices : List.range (n + 1) =
      List.range k ++ k :: (List.range' k (n - k)).map (1 + ·) := by
    rw [range_eq_append (Nat.le_succ_of_le hk), Nat.succ_sub hk, List.range'_succ,
      List.map_add_range', Nat.add_comm 1 k]
  rw [viewOf_eq_filterMap (h.endsAt hr hk), viewOf_eq_filterMap hr, hindices, range_eq_append hk,
    List.filterMap_append, List.filterMap_append, List.filterMap_cons, hblank,
    List.filterMap_congr hbefore, List.filterMap_map]
  congr 1
  exact List.filterMap_congr hbehind

/-- **Nothing behind the first missing index is read**, and no comment there either. -/
theorem viewOf_eq_of_agree (h : r.EndsAt field n)
    (hline : ∀ i ≤ n, s.get? (familyKey field i) = r.get? (familyKey field i))
    (hcomment : ∀ i < n, s.get? (familyKey (commentFamily field) i) =
      r.get? (familyKey (commentFamily field) i)) :
    viewOf s field = viewOf r field := by
  rw [viewOf_eq_filterMap h, viewOf_eq_filterMap (h.of_agree hline)]
  refine List.filterMap_congr fun i hi => ?_
  have hlt : i < n := List.mem_range.mp hi
  exact entryAt?_congr (hline i (Nat.le_of_lt hlt)) (hcomment i hlt)

/-! ## Each entry and its line -/

/-- Holds of the indices at which a line is empty and has no comment. -/
def IsBlankLine (r : Record) (field : String) (i : Nat) : Prop :=
  r.get? (familyKey field i) = some "" ∧ r.get? (familyKey (commentFamily field) i) = none

instance (r : Record) (field : String) (i : Nat) : Decidable (IsBlankLine r field i) :=
  inferInstanceAs (Decidable (_ ∧ _))

/-- The line at an index with its comment, at the end of which no blanks are left. -/
def commentedLine (r : Record) (field : String) (i : Nat) : ViewLine :=
  { ViewLine.parse (r.get (familyKey field i)) with
    comment := (r.get? (familyKey (commentFamily field) i)).map fun c =>
      String.ofList (Text.trimEnd c.toList) }

/-- A line in front of the first missing index leaves an entry unless it is blank. -/
theorem entryAt?_eq_ite (h : r.EndsAt field n) {i : Nat} (hi : i < n) :
    entryAt? r field i =
      if IsBlankLine r field i then none else some (commentedLine r field i) := by
  obtain ⟨line, hline⟩ := h.exists_get? hi
  simp only [entryAt?, ViewLine.ofLine?, commentedLine, IsBlankLine, Record.get, hline,
    Option.getD_some, Option.some.injEq]

/-- **The entries of a view are its lines but the blank ones**, each with its own comment. -/
theorem viewOf_eq_map (h : r.EndsAt field n) :
    viewOf r field =
      ((List.range n).filter fun i => ¬ IsBlankLine r field i).map (commentedLine r field) := by
  rw [viewOf_eq_filterMap h, ← List.filterMap_eq_map, List.filterMap_filter]
  refine List.filterMap_congr fun i hi => ?_
  rw [entryAt?_eq_ite h (List.mem_range.mp hi)]
  by_cases hblank : IsBlankLine r field i <;> simp [hblank]

/-- **Blank lines leave no trace, and comments stay with their lines.** If `n` is the first missing
index of the lines of a view, then

* a blank line can be put at any index up to `n`, and the view is then the same as before;
* lines behind `n` and comments from `n` on have no influence, nor has any other key, whatever is
  changed there, put in or taken out;
* the entries stand for the lines in front of `n` that are not blank, in order: each is read from
  its line, and its comment is the one with the index of the line, without blanks at its end. -/
theorem viewOf_exact (h : r.EndsAt field n) :
    (∀ k ≤ n, BlankLineAt r field k (withBlankLine r field k) ∧
      ∀ s, BlankLineAt r field k s → viewOf s field = viewOf r field) ∧
    (∀ s : Record, (∀ i ≤ n, s.get? (familyKey field i) = r.get? (familyKey field i)) →
      (∀ i < n, s.get? (familyKey (commentFamily field) i) =
        r.get? (familyKey (commentFamily field) i)) →
      viewOf s field = viewOf r field) ∧
    ∃ indices : List Nat, indices.Pairwise (· < ·) ∧
      (∀ i, i ∈ indices ↔ i < n ∧ ¬ (r.get? (familyKey field i) = some "" ∧
        r.get? (familyKey (commentFamily field) i) = none)) ∧
      viewOf r field = indices.map fun i =>
        { ViewLine.parse (r.get (familyKey field i)) with
          comment := (r.get? (familyKey (commentFamily field) i)).map fun c =>
            String.ofList (Text.trimEnd c.toList) } := by
  refine ⟨fun k hk => ⟨blankLineAt_withBlankLine r field k, fun s hs => hs.viewOf_eq h hk⟩,
    fun s hline hcomment => viewOf_eq_of_agree h hline hcomment,
    (List.range n).filter fun i => ¬ IsBlankLine r field i, ?_, fun i => ?_, viewOf_eq_map h⟩
  · exact List.pairwise_lt_range.filter _
  · rw [List.mem_filter, List.mem_range, decide_eq_true_iff]
    rfl

/-- Two lines, the second with a comment; behind the gap stand a line and a comment more. -/
def twoLines : Record :=
  .ofList [("Paths0", "share ..."), ("Paths1", "isolate bin/..."), ("PathsComment1", "## ours "),
    ("Paths3", "share late/..."), ("PathsComment2", "## late")]

/-- Between the two lines a blank one has been put. -/
def twoLinesApart : Record :=
  .ofList [("Paths0", "share ..."), ("Paths1", ""), ("Paths2", "isolate bin/..."),
    ("PathsComment2", "## ours "), ("Paths4", "share late/..."), ("PathsComment3", "## late")]

/-- The view is the same, and its second entry still has the comment of its line. -/
theorem viewOf_exact_two_lines :
    twoLines.EndsAt "Paths" 2 ∧ withBlankLine twoLines "Paths" 1 = twoLinesApart ∧
    viewOf twoLinesApart "Paths" = viewOf twoLines "Paths" ∧
    (viewOf twoLines "Paths").map ViewLine.comment = [none, some "## ours"] := by
  have hend : twoLines.EndsAt "Paths" 2 := by
    constructor
    · decide
    · decide
  have hfields : (withBlankLine twoLines "Paths" 1).toList = twoLinesApart.toList := by decide
  have happart : withBlankLine twoLines "Paths" 1 = twoLinesApart :=
    congrArg Record.mk (Std.ExtTreeMap.toList_inj.mp hfields)
  obtain ⟨hblank, hview⟩ := (viewOf_exact hend).1 1 (by decide)
  exact ⟨hend, happart, hview _ (happart ▸ hblank), by decide⟩

end DepotClient
