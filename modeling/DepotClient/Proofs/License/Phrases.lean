import DepotClient.License.Basic
import DepotClient.Proofs.Record.Family
import DepotClient.Proofs.Text.Pattern
import DepotClient.Proofs.Text.ScriptDigits

/-! # The two facts in a summary

A summary is free text, and two scans go through it: one reads runs of digits and looks for the word
for users behind each of them, the other looks for a date in brackets at every place. What the scans
find is put here in two other ways. `TellsUsers` and `TellsExpiry` say which texts tell a fact, and
`First` what it means that one of them is the first in a text. `usersPattern` and `expiryPattern` are
the patterns of these texts, for which a text is searched from the left.

* **`License.first_usersIn?`**, **`License.first_expiryIn?`** — the scans find the first of each;
* **`License.search?_usersPattern`**, **`License.search?_expiryPattern`** — and so do the searches. -/

namespace DepotClient

/-! ## Phrases up to case folding -/

/-- A phrase is read off the front exactly if the text begins with characters that fold to it. -/
theorem Text.afterFolded?_eq_some_iff {phrase cs rest : List Char} :
    afterFolded? phrase cs = some rest ↔
      ∃ word, cs = word ++ rest ∧ word.map simpleFold = phrase := by
  induction phrase generalizing cs with
  | nil => simp [eq_comm]
  | cons p phrase ih =>
    cases cs with
    | nil =>
      constructor
      · intro h; cases h
      · rintro ⟨word, hcs, hword⟩
        obtain ⟨rfl, -⟩ := List.append_eq_nil_iff.mp hcs.symm
        cases hword
    | cons c cs =>
      rw [afterFolded?]
      constructor
      · intro h
        split at h
        · rename_i hc
          obtain ⟨word, rfl, rfl⟩ := ih.mp h
          exact ⟨c :: word, rfl, by rw [List.map_cons, hc]⟩
        · cases h
      · rintro ⟨word, hcs, hword⟩
        obtain ⟨d, word, rfl, rfl, rfl⟩ := List.map_eq_cons_iff.mp hword
        obtain ⟨rfl, rfl⟩ := List.cons.inj hcs
        rw [if_pos rfl]
        exact ih.mpr ⟨word, rfl, rfl⟩

namespace License

/-! ## Characters of given classes -/

variable {classes : List (Char → Bool)}

/-- The classes of the characters that fold to those of a phrase. -/
def folded (phrase : List Char) : List (Char → Bool) :=
  phrase.map fun p c => Text.simpleFold c == p

theorem afterFolded?_eq (phrase cs : List Char) :
    Text.afterFolded? phrase cs =
      if beginsWith (folded phrase) cs then some (cs.drop phrase.length) else none := by
  induction phrase generalizing cs with
  | nil => simp [folded, beginsWith]
  | cons p phrase ih =>
    cases cs with
    | nil => rfl
    | cons c cs =>
      have hbegins : beginsWith (folded (p :: phrase)) (c :: cs) =
          (Text.simpleFold c == p && beginsWith (folded phrase) cs) := rfl
      rw [Text.afterFolded?, ih, hbegins]
      by_cases hc : Text.simpleFold c = p
      · rw [if_pos hc, beq_iff_eq.mpr hc, Bool.true_and, List.length_cons, List.drop_succ_cons]
      · rw [if_neg hc, beq_false_of_ne hc]
        rfl

theorem beginsWith_append (classes others : List (Char → Bool)) (cs : List Char) :
    beginsWith (classes ++ others) cs =
      (beginsWith classes cs && beginsWith others (cs.drop classes.length)) := by
  induction classes generalizing cs with
  | nil => simp [beginsWith]
  | cons p classes ih =>
    cases cs with
    | nil => rfl
    | cons c cs => simp [beginsWith, ih, Bool.and_assoc]

/-- There is one way to match single characters, if they are there. -/
theorem ways_map_one (classes : List (Char → Bool)) (cs : List Char) :
    Pattern.ways (classes.map .one) cs =
      if beginsWith classes cs then [(cs.take classes.length, cs.drop classes.length)] else [] := by
  induction classes generalizing cs with
  | nil => simp [Pattern.ways, beginsWith]
  | cons p classes ih =>
    cases cs with
    | nil => rfl
    | cons c cs =>
      rw [List.map_cons, Pattern.ways, Pattern.Piece.ways, beginsWith]
      cases p c with
      | false => rfl
      | true =>
        rw [if_pos rfl, List.flatMap_singleton, ih, Bool.true_and]
        split <;> rfl

/-- Digits of any script in front of other characters. -/
theorem beginsWith_replicate_append {n : Nat} {cs : List Char} :
    beginsWith (List.replicate n Text.isDecimalDigit ++ classes) cs = true ↔
      ∃ ds rest, cs = ds ++ rest ∧ (IsDecimal ds ∧ ds.length = n) ∧
        beginsWith classes rest = true := by
  induction n generalizing cs with
  | zero =>
    constructor
    · intro h
      exact ⟨[], cs, rfl, ⟨List.forall_mem_nil _, rfl⟩, h⟩
    · rintro ⟨ds, rest, rfl, ⟨-, hlen⟩, h⟩
      obtain rfl := List.length_eq_zero_iff.mp hlen
      exact h
  | succ n ih =>
    rw [List.replicate_succ, List.cons_append]
    constructor
    · intro h
      cases cs with
      | nil => cases h
      | cons c cs =>
        obtain ⟨hc, hcs⟩ := Bool.and_eq_true_iff.mp h
        obtain ⟨ds, rest, rfl, ⟨hds, rfl⟩, hrest⟩ := ih.mp hcs
        exact ⟨c :: ds, rest, rfl, ⟨List.forall_mem_cons.mpr ⟨hc, hds⟩, rfl⟩, hrest⟩
    · rintro ⟨ds, rest, rfl, ⟨hds, hlen⟩, hrest⟩
      obtain ⟨d, ds, rfl⟩ := List.exists_cons_of_length_eq_add_one hlen
      obtain ⟨hd, hds⟩ := List.forall_mem_cons.mp hds
      exact Bool.and_eq_true_iff.mpr
        ⟨hd, ih.mpr ⟨ds, rest, rfl, ⟨hds, Nat.succ.inj hlen⟩, hrest⟩⟩

/-- A sign in front of other characters. -/
theorem beginsWith_sign {sign : Char} {cs : List Char} :
    beginsWith ((· == sign) :: classes) cs = true ↔
      ∃ rest, cs = sign :: rest ∧ beginsWith classes rest = true := by
  cases cs with
  | nil => simp [beginsWith]
  | cons c cs => simp [beginsWith]

/-- A character that no class accepts ends what a text begins with. -/
theorem beginsWith_append_cons {c : Char} (hc : ∀ p ∈ classes, p c = false) (cs rest : List Char) :
    beginsWith classes (cs ++ c :: rest) = beginsWith classes cs := by
  induction classes generalizing cs with
  | nil => rfl
  | cons p classes ih =>
    obtain ⟨hp, hclasses⟩ := List.forall_mem_cons.mp hc
    cases cs with
    | nil => simp [beginsWith, hp]
    | cons d cs => simp [beginsWith, ih hclasses]

/-- A text in which no character is of the last class is nothing to begin with. -/
theorem beginsWith_eq_false {last : Char → Bool} {cs : List Char}
    (hlast : ∀ c ∈ cs, last c = false) : beginsWith (classes ++ [last]) cs = false := by
  induction classes generalizing cs with
  | nil =>
    cases cs with
    | nil => rfl
    | cons c cs => simp [beginsWith, hlast c List.mem_cons_self]
  | cons p classes ih =>
    cases cs with
    | nil => rfl
    | cons c cs => simp [beginsWith, ih (List.forall_mem_cons.mp hlast).2]

/-- Behind the last character of the last class stands nothing that matters. -/
theorem beginsWith_append_of_last {last : Char → Bool} {rest : List Char}
    (hlast : ∀ c ∈ rest, last c = false) (cs : List Char) :
    beginsWith (classes ++ [last]) (cs ++ rest) = beginsWith (classes ++ [last]) cs := by
  induction cs generalizing classes with
  | nil =>
    rw [List.nil_append, beginsWith_eq_false hlast, beginsWith_eq_false (List.forall_mem_nil _)]
  | cons c cs ih =>
    cases classes with
    | nil => rfl
    | cons p classes => simp [beginsWith, ih]

theorem length_le_of_beginsWith {cs : List Char} (h : beginsWith classes cs = true) :
    classes.length ≤ cs.length := by
  induction classes generalizing cs with
  | nil => exact Nat.zero_le _
  | cons p classes ih =>
    cases cs with
    | nil => cases h
    | cons c cs => exact Nat.succ_le_succ (ih (Bool.and_eq_true_iff.mp h).2)

/-! ## What tells the two facts -/

/-- Relates a text to the digits of a number of users that it tells: digits of any script, and the
word for users behind them. -/
def TellsUsers (text ds : List Char) : Prop :=
  ds ≠ [] ∧ IsDecimal ds ∧
    ∃ word, text = ds ++ word ∧ word.map Text.simpleFold = " users".toList

/-- Holds of four, two and two digits of any script with slashes between them. -/
def IsDateText (date : List Char) : Prop :=
  ∃ year month day, date = year ++ '/' :: (month ++ '/' :: day) ∧
    (IsDecimal year ∧ year.length = 4) ∧ (IsDecimal month ∧ month.length = 2) ∧
      IsDecimal day ∧ day.length = 2

/-- Relates a text to the date that it tells as the day of expiry, in brackets and behind a word for
it. -/
def TellsExpiry (text date : List Char) : Prop :=
  IsDateText date ∧
    ∃ phrase, text = phrase ++ (date ++ [')']) ∧ phrase.map Text.simpleFold = "(expires ".toList

/-- Holds if no digit stands at the end of a text, so that digits behind it are a run of their own. -/
def EndsInNoDigit (cs : List Char) : Prop := ∀ c ∈ cs.getLast?, Text.isDecimalDigit c = false

/-- A number of users in a text, behind the given part of it and with no digit in front. -/
def UsersAt (t before ds : List Char) : Prop :=
  EndsInNoDigit before ∧
    ∃ text after, TellsUsers text ds ∧ t = before ++ (text ++ after)

/-- A day of expiry in a text, behind the given part of it. -/
def ExpiryAt (t before date : List Char) : Prop :=
  ∃ text after, TellsExpiry text date ∧ t = before ++ (text ++ after)

/-- What is found first in a text, given all that can be found and what stands in front of it: that
with the least in front, or nothing if there is nothing to be found. -/
def First (At : List Char → List Char → Prop) : Option (List Char) → Prop
  | some found => ∃ before, At before found ∧ ∀ other found', At other found' →
      before.length ≤ other.length
  | none => ∀ before found, ¬At before found

theorem endsInNoDigit_nil : EndsInNoDigit [] := fun _ hc => nomatch hc

/-- Behind a character that is no digit, only what follows it counts. -/
theorem endsInNoDigit_append_cons {c : Char} (hc : Text.isDecimalDigit c = false)
    (front rest : List Char) : EndsInNoDigit (front ++ c :: rest) ↔ EndsInNoDigit rest := by
  unfold EndsInNoDigit
  rw [List.getLast?_append, List.getLast?_cons, Option.some_or]
  cases rest.getLast? <;> simp [hc]

/-- What is found in the rest of a text is found in the whole, if nothing is found before. -/
theorem First.of_rest {At Rest : List Char → List Char → Prop} {found : Option (List Char)}
    (hfirst : First Rest found) (pre : List Char)
    (h : ∀ before x, At before x ↔ ∃ rest, before = pre ++ rest ∧ Rest rest x) :
    First At found := by
  cases found with
  | none =>
    intro before x hat
    obtain ⟨rest, -, hrest⟩ := (h before x).mp hat
    exact hfirst rest x hrest
  | some x =>
    obtain ⟨rest, hrest, hleast⟩ := hfirst
    refine ⟨pre ++ rest, (h _ x).mpr ⟨rest, rfl, hrest⟩, ?_⟩
    intro other y hat
    obtain ⟨rest', rfl, hrest'⟩ := (h other y).mp hat
    have := hleast rest' y hrest'
    simp only [List.length_append]
    omega

/-! ## The first number of users -/

/-- The word for users begins with a space, which is no digit. -/
theorem isDecimalDigit_head?_word {word : List Char}
    (h : word.map Text.simpleFold = " users".toList) (after : List Char) :
    ∀ c ∈ (word ++ after).head?, Text.isDecimalDigit c = false := by
  obtain ⟨s, word, rfl, hs, -⟩ := List.map_eq_cons_iff.mp h
  rintro c ⟨rfl⟩
  exact Text.isDecimalDigit_of_simpleFold (by rw [hs]; decide)

/-- Behind a run of digits and a character that is none, the numbers of users are those of the rest,
unless the run is one. -/
theorem usersAt_append_cons {run : List Char} (hrun : IsDecimal run) {c : Char}
    (hc : Text.isDecimalDigit c = false) {cs : List Char}
    (h : ¬(run ≠ [] ∧ (Text.afterFolded? " users".toList (c :: cs)).isSome)) (before ds : List Char) :
    UsersAt (run ++ c :: cs) before ds ↔
      ∃ rest, before = run ++ c :: rest ∧ UsersAt cs rest ds := by
  constructor
  · rintro ⟨hend, text, after, ⟨hne, hds, word, rfl, hword⟩, htext⟩
    -- no run of digits begins behind the whole run
    have hbegin : ∀ rest, ds ++ word ++ after ≠ c :: rest := by
      intro rest hcons
      cases ds with
      | nil => exact hne rfl
      | cons d ds =>
        obtain rfl : d = c := (List.cons.inj hcons).1
        rw [hds d List.mem_cons_self] at hc
        cases hc
    obtain ⟨rest, rfl, hrest⟩ | ⟨rest, hsplit, hrest⟩ := List.append_eq_append_iff.mp htext
    · cases rest with
      | nil => exact absurd hrest.symm (hbegin cs)
      | cons b rest =>
        obtain ⟨rfl, rfl⟩ := List.cons.inj hrest
        exact ⟨rest, rfl, (endsInNoDigit_append_cons hc run rest).mp hend, _, after,
          ⟨hne, hds, word, rfl, hword⟩, rfl⟩
    · -- a number within the run begins with it, since no digit stands in front
      obtain rfl : before = [] := by
        cases hlast : before.getLast? with
        | none => exact List.getLast?_eq_none_iff.mp hlast
        | some z =>
          have hz := hrun z (hsplit ▸ List.mem_append_left _ (List.mem_of_getLast? hlast))
          rw [hend z hlast] at hz
          cases hz
      rw [List.nil_append] at hsplit
      subst hsplit
      rw [List.append_assoc] at hrest
      obtain ⟨rfl, hword'⟩ := append_inj_of_run hds hrun (isDecimalDigit_head?_word hword _)
        (fun d hd => by obtain rfl := Option.some.inj hd; exact hc) hrest
      have hfound := Text.afterFolded?_eq_some_iff.mpr ⟨word, hword'.symm, hword⟩
      exact absurd ⟨hne, by rw [hfound]; rfl⟩ h
  · rintro ⟨rest, rfl, hend, text, after, htells, rfl⟩
    exact ⟨(endsInNoDigit_append_cons hc run rest).mpr hend, text, after, htells, by simp⟩

/-- A run of digits alone tells no number of users. -/
theorem not_usersAt_of_decimal {run : List Char} (hrun : IsDecimal run) (before ds : List Char) :
    ¬UsersAt run before ds := by
  rintro ⟨-, text, after, ⟨-, -, word, rfl, hword⟩, rfl⟩
  obtain ⟨s, word, rfl, -⟩ := List.map_eq_cons_iff.mp hword
  have hs : Text.isDecimalDigit s = false := isDecimalDigit_head?_word hword after s rfl
  exact hrun.not_mem hs (by simp)

/-- **Along a text, the scan goes from one maximal run of digits to the next.** What holds of the end
of a text, of a run with the word for users behind it, and of any other run if it holds of the text
behind it, holds of what is found. By induction on the text behind the run that is being read. -/
theorem usersIn?_of_runs {P : List Char → Option (List Char) → Prop}
    (hend : ∀ run, IsDecimal run → P run none)
    (hfound : ∀ run c cs, IsDecimal run → Text.isDecimalDigit c = false →
      run ≠ [] ∧ (Text.afterFolded? " users".toList (c :: cs)).isSome → P (run ++ c :: cs) (some run))
    (hrest : ∀ run c cs o, IsDecimal run → Text.isDecimalDigit c = false →
      ¬(run ≠ [] ∧ (Text.afterFolded? " users".toList (c :: cs)).isSome) → P cs o →
        P (run ++ c :: cs) o)
    {run : List Char} (hrun : IsDecimal run) (cs : List Char) :
    P (run.reverse ++ cs) (usersIn? run cs) := by
  induction cs generalizing run with
  | nil =>
    rw [List.append_nil]
    exact hend _ hrun.reverse
  | cons c cs ih =>
    rw [usersIn?]
    cases hc : Text.isDecimalDigit c with
    | true =>
      have htext : run.reverse ++ c :: cs = (c :: run).reverse ++ cs := by simp
      rw [if_pos rfl, htext]
      exact ih (List.forall_mem_cons.mpr ⟨hc, hrun⟩)
    | false =>
      rw [if_neg Bool.false_ne_true]
      split
      · rename_i hword
        exact hfound _ c cs hrun.reverse hc ⟨List.reverse_ne_nil_iff.mpr hword.1, hword.2⟩
      · rename_i hword
        exact hrest _ c cs _ hrun.reverse hc (by rwa [List.reverse_ne_nil_iff])
          (ih (List.forall_mem_nil _))

/-- **The scan finds the first number of users.** -/
theorem first_usersIn? (t : List Char) : First (UsersAt t) (usersIn? [] t) := by
  refine usersIn?_of_runs (P := fun t found => First (UsersAt t) found) ?_ ?_ ?_
    (List.forall_mem_nil _) t
  · intro run hrun
    exact not_usersAt_of_decimal hrun
  · rintro run c cs hrun hc ⟨hne, hword⟩
    obtain ⟨after, hafter⟩ := Option.isSome_iff_exists.mp hword
    obtain ⟨word, htext, hfold⟩ := Text.afterFolded?_eq_some_iff.mp hafter
    refine ⟨[], ⟨endsInNoDigit_nil, run ++ word, after, ⟨hne, hrun, word, rfl, hfold⟩, ?_⟩,
      fun _ _ _ => Nat.zero_le _⟩
    rw [htext, List.nil_append, List.append_assoc]
  · intro run c cs found hrun hc hword hrest
    refine hrest.of_rest (run ++ [c]) fun before ds => ?_
    rw [usersAt_append_cons hrun hc hword]
    simp

/-- The pattern of a number of users: a run of digits, and the word for users behind it. -/
def usersPattern : Pattern :=
  .runThen Text.isDecimalDigit ((folded " users".toList).map .one)

/-- **A search for the pattern finds what the scan finds.** The word for users does not begin with a
digit, so a run of digits counts as a whole or not at all. -/
theorem search?_usersPattern (t : List Char) : usersPattern.search? t = usersIn? [] t := by
  have hways : ∀ cs, Pattern.ways ((folded " users".toList).map .one) cs ≠ [] ↔
      (Text.afterFolded? " users".toList cs).isSome = true := by
    intro cs
    rw [ways_map_one, afterFolded?_eq]
    split <;> simp
  have hafter : ∀ d rest, Text.isDecimalDigit d = true →
      Pattern.ways ((folded " users".toList).map .one) (d :: rest) = [] := by
    intro d rest hd
    by_contra hne
    obtain ⟨after, hafter⟩ := Option.isSome_iff_exists.mp ((hways _).mp hne)
    obtain ⟨word, hword, hfold⟩ := Text.afterFolded?_eq_some_iff.mp hafter
    have hdigit := isDecimalDigit_head?_word hfold after d (by rw [← hword]; rfl)
    rw [hd] at hdigit
    cases hdigit
  refine usersIn?_of_runs (P := fun t found => usersPattern.search? t = found) ?_ ?_ ?_
    (List.forall_mem_nil _) t
  · intro run hrun
    exact Pattern.search?_runThen_nil hafter rfl hrun
  · intro run c cs hrun hc hword
    rw [usersPattern, Pattern.search?_runThen hafter hrun hc,
      if_pos ⟨hword.1, (hways _).mpr hword.2⟩]
  · intro run c cs found hrun hc hword hrest
    rw [usersPattern, Pattern.search?_runThen hafter hrun hc,
      if_neg fun h => hword ⟨h.1, (hways _).mp h.2⟩]
    exact hrest

/-! ## The first day of expiry -/

theorem IsDateText.length_eq {date : List Char} (h : IsDateText date) :
    date.length = dateShape.length := by
  obtain ⟨year, month, day, rfl, ⟨-, hyear⟩, ⟨-, hmonth⟩, -, hday⟩ := h
  simp [hyear, hmonth, hday, dateShape]

/-- The classes of the characters of a date, and of the bracket behind it. -/
theorem beginsWith_dateShape {cs : List Char} :
    beginsWith (dateShape ++ [(· == ')')]) cs = true ↔
      ∃ date rest, IsDateText date ∧ cs = date ++ ')' :: rest := by
  have hshape : dateShape ++ [(· == ')')] = List.replicate 4 Text.isDecimalDigit ++
      (· == '/') :: (List.replicate 2 Text.isDecimalDigit ++
        (· == '/') :: (List.replicate 2 Text.isDecimalDigit ++ [(· == ')')])) := rfl
  rw [hshape]
  simp only [beginsWith_replicate_append, beginsWith_sign]
  constructor
  · rintro ⟨year, _, rfl, hyear, _, rfl, month, _, rfl, hmonth, _, rfl, day, _, rfl, hday, rest, rfl,
      -⟩
    exact ⟨year ++ '/' :: (month ++ '/' :: day), rest, ⟨year, month, day, rfl, hyear, hmonth, hday⟩,
      by simp⟩
  · rintro ⟨_, rest, ⟨year, month, day, rfl, hyear, hmonth, hday⟩, rfl⟩
    exact ⟨year, _, by simp, hyear, _, rfl, month, _, rfl, hmonth, _, rfl, day, _, rfl, hday, rest,
      rfl, rfl⟩

/-- A date is found at the start of a text exactly if the text begins with what tells it. -/
theorem expiryAt?_eq_some_iff {cs date : List Char} :
    expiryAt? cs = some date ↔ ∃ text after, TellsExpiry text date ∧ cs = text ++ after := by
  unfold expiryAt?
  constructor
  · intro hfound
    obtain ⟨rest, hrest, h⟩ := Option.bind_eq_some_iff.mp hfound
    obtain ⟨phrase, rfl, hphrase⟩ := Text.afterFolded?_eq_some_iff.mp hrest
    split at h
    · rename_i hshape
      obtain ⟨date', after, hdate, rfl⟩ := beginsWith_dateShape.mp hshape
      obtain rfl : date' = date := by
        rw [List.take_left' hdate.length_eq] at h
        exact Option.some.inj h
      exact ⟨phrase ++ (date' ++ [')']), after, ⟨hdate, phrase, rfl, hphrase⟩, by simp⟩
    · cases h
  · rintro ⟨text, after, ⟨hdate, phrase, rfl, hphrase⟩, rfl⟩
    have hrest : Text.afterFolded? "(expires ".toList (phrase ++ (date ++ [')']) ++ after) =
        some (date ++ ')' :: after) :=
      Text.afterFolded?_eq_some_iff.mpr ⟨phrase, by simp, hphrase⟩
    rw [hrest, Option.bind_some, if_pos (beginsWith_dateShape.mpr ⟨date, after, hdate, rfl⟩),
      List.take_left' hdate.length_eq]

/-- **The scan finds the first day of expiry.** -/
theorem first_expiryIn? (t : List Char) : First (ExpiryAt t) (expiryIn? t) := by
  induction t with
  | nil =>
    rintro before date ⟨text, after, ⟨-, phrase, rfl, hphrase⟩, htext⟩
    obtain ⟨c, phrase, rfl, -⟩ := List.map_eq_cons_iff.mp hphrase
    simp at htext
  | cons c cs ih =>
    rw [expiryIn?]
    cases hat : expiryAt? (c :: cs) with
    | some date =>
      obtain ⟨text, after, htells, htext⟩ := expiryAt?_eq_some_iff.mp hat
      exact ⟨[], ⟨text, after, htells, htext⟩, fun _ _ _ => Nat.zero_le _⟩
    | none =>
      refine ih.of_rest [c] fun before date => ?_
      constructor
      · rintro ⟨text, after, htells, htext⟩
        cases before with
        | nil =>
          rw [expiryAt?_eq_some_iff.mpr ⟨text, after, htells, htext⟩] at hat
          cases hat
        | cons b before =>
          obtain ⟨rfl, rfl⟩ := List.cons.inj htext
          exact ⟨before, rfl, text, after, htells, rfl⟩
      · rintro ⟨rest, rfl, text, after, htells, rfl⟩
        exact ⟨text, after, htells, rfl⟩

/-- The pattern of a day of expiry: a date in brackets, with a word for it in front. -/
def expiryPattern : Pattern where
  before := (folded "(expires ".toList).map .one
  group := dateShape.map .one
  after := [.one (· == ')')]

/-- The classes of the characters that tell a day of expiry. -/
def expiryClasses : List (Char → Bool) :=
  folded "(expires ".toList ++ (dateShape ++ [(· == ')')])

/-- What a text begins with decides whether it begins with a day of expiry. -/
theorem expiryAt?_eq (cs : List Char) :
    expiryAt? cs =
      if beginsWith expiryClasses cs then some ((cs.drop 9).take dateShape.length) else none := by
  rw [expiryAt?, afterFolded?_eq, expiryClasses, beginsWith_append]
  cases beginsWith (folded "(expires ".toList) cs <;> rfl

/-- **A search for the pattern finds what the scan finds.** -/
theorem search?_expiryPattern (t : List Char) : expiryPattern.search? t = expiryIn? t := by
  have hcaptures : ∀ cs, (Pattern.captures expiryPattern cs).head? = expiryAt? cs := by
    intro cs
    have hone : [Pattern.Piece.one (· == ')')] = [(· == ')')].map Pattern.Piece.one := rfl
    simp only [Pattern.captures, expiryPattern, hone, ways_map_one]
    rw [expiryAt?_eq, expiryClasses, beginsWith_append, beginsWith_append]
    -- the phrase, the date and the bracket follow one another, each in one way
    cases beginsWith (folded "(expires ".toList) cs with
    | false => rfl
    | true =>
      have hlength : (folded "(expires ".toList).length = 9 := rfl
      rw [if_pos rfl, List.flatMap_singleton, hlength]
      cases beginsWith dateShape (cs.drop 9) with
      | false => rfl
      | true =>
        rw [if_pos rfl, List.flatMap_singleton]
        cases beginsWith [(· == ')')] ((cs.drop 9).drop dateShape.length) <;> rfl
  induction t with
  | nil => exact hcaptures []
  | cons c cs ih => rw [Pattern.search?, hcaptures, ih, expiryIn?]

end License

end DepotClient
