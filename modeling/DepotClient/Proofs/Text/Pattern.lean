import Mathlib.Data.List.TakeWhile

/-! # Searching for a pattern

A `Pattern` is a row of pieces, each of them one character of a class or a run of such characters,
and some of the pieces form a group. Searching goes from left to right and takes the first place at
which the pattern matches. Where it matches in several ways, the earlier runs are as long as they can
be, and are shortened only if the rest of the pattern does not match otherwise.

`Pattern.search?` is this search by trying, with all ways to match in the order in which they are
tried. For a run with other pieces behind it, nothing has to be tried if these cannot match where the
run goes on: only the maximal runs count, each from its first character on.

* **`Pattern.ways`** — the ways to match a row of pieces, in the order in which they are tried;
* **`Pattern.search?`** — what the group holds at the first place where the pattern matches;
* **`Pattern.captures_runThen`** — a run that matches is as long as it can be;
* **`Pattern.search?_runThen`** — a search for a run goes from one maximal run to the next. -/

namespace DepotClient

/-- A piece of a pattern. -/
inductive Pattern.Piece
  /-- One character of a class. -/
  | one (p : Char → Bool)
  /-- One or more characters of a class, as many as possible. -/
  | many (p : Char → Bool)

/-- A row of pieces, some of which form a group. -/
structure Pattern where
  /-- The pieces in front of the group. -/
  before : List Pattern.Piece
  /-- The pieces of the group. -/
  group : List Pattern.Piece
  /-- The pieces behind the group. -/
  after : List Pattern.Piece

namespace Pattern

/-! ## Ways to match -/

/-- A way to match: the text that is taken, and the text behind it. -/
abbrev Way := List Char × List Char

/-- The ways to take one or more characters of a class, the longest first. -/
def runs (p : Char → Bool) : List Char → List Way
  | [] => []
  | c :: cs => if p c then (runs p cs).map (Prod.map (c :: ·) id) ++ [([c], cs)] else []

/-- The ways to match one piece. -/
def Piece.ways : Piece → List Char → List Way
  | one _, [] => []
  | one p, c :: cs => if p c then [([c], cs)] else []
  | many p, cs => runs p cs

/-- The ways to match a row of pieces: every way to match the first one is followed by all ways to
match the others behind it. -/
def ways : List Piece → List Char → List Way
  | [], cs => [([], cs)]
  | piece :: pieces, cs =>
    (piece.ways cs).flatMap fun w => (ways pieces w.2).map (Prod.map (w.1 ++ ·) id)

/-- The texts of the group in the ways to match a pattern at the start of a text. -/
def captures (pattern : Pattern) (cs : List Char) : List (List Char) :=
  (ways pattern.before cs).flatMap fun front =>
    (ways pattern.group front.2).flatMap fun group =>
      (ways pattern.after group.2).map fun _ => group.1

/-- The text of the group at the first place where the pattern matches, in the first way. -/
def search? (pattern : Pattern) : List Char → Option (List Char)
  | [] => (captures pattern []).head?
  | c :: cs => (captures pattern (c :: cs)).head?.or (search? pattern cs)

/-! ## Runs -/

variable {p : Char → Bool}

/-- **The first way to take a run is the maximal one**, and behind each of the others another
character of the class stands. -/
theorem exists_runs_eq_cons {c : Char} (h : p c = true) (cs : List Char) :
    ∃ shorter, runs p (c :: cs) = ((c :: cs).takeWhile p, (c :: cs).dropWhile p) :: shorter ∧
      ∀ w ∈ shorter, ∃ d rest, w.2 = d :: rest ∧ p d = true := by
  induction cs generalizing c with
  | nil => exact ⟨[], by simp [runs, h], fun _ hw => nomatch hw⟩
  | cons d ds ih =>
    cases hd : p d with
    | false => exact ⟨[], by simp [runs, h, hd], fun _ hw => nomatch hw⟩
    | true =>
      obtain ⟨shorter, hruns, hshorter⟩ := ih hd
      refine ⟨shorter.map (Prod.map (c :: ·) id) ++ [([c], d :: ds)], ?_, ?_⟩
      · rw [runs, if_pos h, hruns, List.takeWhile_cons_of_pos h, List.dropWhile_cons_of_pos h]
        rfl
      · intro w hw
        obtain hw | hw := List.mem_append.mp hw
        · obtain ⟨w, hmem, rfl⟩ := List.mem_map.mp hw
          exact hshorter w hmem
        · obtain rfl := List.mem_singleton.mp hw
          exact ⟨d, ds, rfl, hd⟩

/-! ## A run with other pieces behind it -/

theorem ways_singleton (piece : Piece) (cs : List Char) : ways [piece] cs = piece.ways cs := by
  simp [ways, Prod.map]

/-- The pattern of a run with other pieces behind it. -/
def runThen (p : Char → Bool) (after : List Piece) : Pattern where
  before := []
  group := [.many p]
  after := after

variable {after : List Piece}

/-- **A run that matches is as long as it can be**, if what follows it cannot match where it goes
on. -/
theorem captures_runThen (hafter : ∀ d rest, p d = true → ways after (d :: rest) = [])
    (cs : List Char) :
    captures (runThen p after) cs =
      if cs.takeWhile p = [] then []
      else (ways after (cs.dropWhile p)).map fun _ => cs.takeWhile p := by
  have hcaptures : captures (runThen p after) cs =
      (runs p cs).flatMap fun w => (ways after w.2).map fun _ => w.1 := by
    simp only [captures, runThen, ways_singleton]
    exact List.flatMap_singleton _ _
  rw [hcaptures]
  cases cs with
  | nil => rfl
  | cons c cs =>
    cases hc : p c with
    | false => simp [runs, hc]
    | true =>
      obtain ⟨shorter, hruns, hshorter⟩ := exists_runs_eq_cons hc cs
      -- a shorter way leaves a character of the run in front of the other pieces
      have hnone : (shorter.flatMap fun w => (ways after w.2).map fun _ => w.1) = [] := by
        refine List.flatMap_eq_nil_iff.mpr fun w hw => ?_
        obtain ⟨d, rest, hrest, hd⟩ := hshorter w hw
        rw [hrest, hafter d rest hd, List.map_nil]
      have hne : (c :: cs).takeWhile p ≠ [] := by
        rw [List.takeWhile_cons_of_pos hc]
        exact List.cons_ne_nil _ _
      rw [hruns, List.flatMap_cons, hnone, List.append_nil, if_neg hne]

/-- At the end of a text a run matches nothing. -/
theorem search?_runThen_nil (hafter : ∀ d rest, p d = true → ways after (d :: rest) = [])
    (hnil : ways after [] = []) {run : List Char} (hrun : ∀ d ∈ run, p d = true) :
    search? (runThen p after) run = none := by
  induction run with
  | nil => rfl
  | cons d run ih =>
    have hdrop : (d :: run).dropWhile p = [] := List.dropWhile_eq_nil_iff.mpr hrun
    rw [search?, ih (List.forall_mem_cons.mp hrun).2, captures_runThen hafter, hdrop, hnil]
    simp

/-- **A search for a run goes from one maximal run to the next**: it ends at the first one behind
which the rest of the pattern matches. By induction on the run: if the rest does not match behind it,
it does so behind no part of it. -/
theorem search?_runThen (hafter : ∀ d rest, p d = true → ways after (d :: rest) = [])
    {run : List Char} (hrun : ∀ d ∈ run, p d = true) {c : Char} (hc : p c = false)
    (cs : List Char) :
    search? (runThen p after) (run ++ c :: cs) =
      if run ≠ [] ∧ ways after (c :: cs) ≠ [] then some run
      else search? (runThen p after) cs := by
  induction run with
  | nil =>
    have hrun : (c :: cs).takeWhile p = [] := List.takeWhile_cons_of_neg (by rw [hc]; decide)
    rw [List.nil_append, search?, captures_runThen hafter, if_pos hrun]
    simp
  | cons d run ih =>
    have htake : (d :: run ++ c :: cs).takeWhile p = d :: run := by
      rw [List.takeWhile_append_of_pos hrun, List.takeWhile_cons_of_neg (by rw [hc]; decide),
        List.append_nil]
    have hdrop : (d :: run ++ c :: cs).dropWhile p = c :: cs := by
      rw [List.dropWhile_append_of_pos hrun, List.dropWhile_cons_of_neg (by rw [hc]; decide)]
    have hsearch : search? (runThen p after) (d :: run ++ c :: cs) =
        ((ways after (c :: cs)).map fun _ => d :: run).head?.or
          (search? (runThen p after) (run ++ c :: cs)) := by
      rw [List.cons_append, search?, ← List.cons_append, captures_runThen hafter, htake, hdrop,
        if_neg (List.cons_ne_nil d run)]
    -- from its second character on the run is tried again, with the same pieces behind it
    rw [hsearch, ih (List.forall_mem_cons.mp hrun).2]
    cases hways : ways after (c :: cs) with
    | nil => simp
    | cons w ws => simp

end Pattern

end DepotClient
