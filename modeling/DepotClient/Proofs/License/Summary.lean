import DepotClient.Proofs.License.Phrases

/-! # What a summary says about the license

The number of users and the day of expiry are looked for in the same text, each on its own. Neither
gets in the way of the other, because a text that tells one of them has no part in a text that tells
the other: a character of it parts what stands in front of it from what stands behind it. So a summary
may tell the two facts in either order, with any text around them.

* **`License.usersIn?_append_expiry`**, **`License.expiryIn?_append_users`** — neither fact takes part
  in the other;
* **`License.usersIn?_append_users`**, **`License.expiryIn?_append_expiry`** — each is found behind any
  text in which there is none;
* **`License.ofSummary?_exact`** — the license of a summary. -/

namespace DepotClient

namespace License

/-! ## What takes no part in a day of expiry -/

/-- More text behind a text that takes no part in what it begins with. -/
theorem expiryAt?_append {cs rest : List Char}
    (h : beginsWith expiryClasses (cs ++ rest) = beginsWith expiryClasses cs) :
    expiryAt? (cs ++ rest) = expiryAt? cs := by
  rw [expiryAt?_eq, expiryAt?_eq, h]
  split
  · rename_i hcs
    have hlength : 20 ≤ cs.length := length_le_of_beginsWith hcs
    have hdate : dateShape.length ≤ (cs.drop 9).length := by
      rw [List.length_drop]
      exact Nat.le_sub_of_add_le (Nat.le_trans (by decide) hlength)
    rw [List.drop_append_of_le_length (by omega), List.take_append_of_le_length hdate]
  · rfl

/-- A day of expiry in two texts laid end to end is in one of them, unless it begins in the first and
goes on in the second. -/
theorem expiryIn?_append {cs rest : List Char}
    (h : ∀ c front, beginsWith expiryClasses (c :: front ++ rest) =
      beginsWith expiryClasses (c :: front)) :
    expiryIn? (cs ++ rest) = (expiryIn? cs).or (expiryIn? rest) := by
  induction cs with
  | nil => rfl
  | cons c cs ih =>
    rw [List.cons_append, expiryIn?, ← List.cons_append, expiryAt?_append (h c cs), ih, expiryIn?,
      Option.or_assoc]

/-- Where no bracket opens, no day of expiry begins. -/
theorem expiryIn?_append_of_first {cs : List Char} (h : ∀ c ∈ cs, Text.simpleFold c ≠ '(')
    (rest : List Char) : expiryIn? (cs ++ rest) = expiryIn? rest := by
  induction cs with
  | nil => rfl
  | cons c cs ih =>
    obtain ⟨hc, hcs⟩ := List.forall_mem_cons.mp h
    have hat : expiryAt? (c :: (cs ++ rest)) = none := by
      have hphrase : "(expires ".toList = '(' :: "expires ".toList := by decide
      rw [expiryAt?, hphrase, Text.afterFolded?, if_neg hc]
      rfl
    rw [List.cons_append, expiryIn?, hat, Option.none_or, ih hcs]

/-- Every text that tells a day of expiry ends with a bracket. -/
theorem expiryClasses_eq :
    expiryClasses = (folded "(expires ".toList ++ dateShape) ++ [(· == ')')] :=
  (List.append_assoc _ _ _).symm

theorem beq_bracket_eq_false {cs : List Char} (h : ')' ∉ cs) : ∀ c ∈ cs, (c == ')') = false :=
  fun _ hc => beq_false_of_ne fun heq => h (heq ▸ hc)

theorem expiryIn?_eq_none {cs : List Char} (h : ')' ∉ cs) : expiryIn? cs = none := by
  induction cs with
  | nil => rfl
  | cons c cs ih =>
    rw [expiryIn?, ih fun hmem => h (List.mem_cons_of_mem c hmem), expiryAt?_eq, expiryClasses_eq,
      beginsWith_eq_false (beq_bracket_eq_false h)]
    rfl

/-- Where no bracket closes, no day of expiry ends. -/
theorem expiryIn?_append_of_last {rest : List Char} (h : ')' ∉ rest) (cs : List Char) :
    expiryIn? (cs ++ rest) = expiryIn? cs := by
  rw [expiryIn?_append, expiryIn?_eq_none h, Option.or_none]
  intro c front
  rw [expiryClasses_eq]
  exact beginsWith_append_of_last (beq_bracket_eq_false h) _

/-- A character that stands nowhere in what tells a day of expiry parts the days in front of it from
those behind it. -/
theorem expiryIn?_append_cons {c : Char} (hc : ∀ p ∈ expiryClasses, p c = false)
    (front rest : List Char) :
    expiryIn? (front ++ c :: rest) = (expiryIn? front).or (expiryIn? rest) := by
  have hat : expiryAt? (c :: rest) = none := by
    have hbegins := beginsWith_append_cons hc [] rest
    rw [List.nil_append] at hbegins
    rw [expiryAt?_eq, hbegins]
    rfl
  rw [expiryIn?_append fun d front => beginsWith_append_cons hc (d :: front) rest, expiryIn?, hat,
    Option.none_or]

/-- A character that folds to none of a phrase, nor to a digit or a sign of a date, is in no text of
a phrase with a date behind it. -/
theorem rejected_of_simpleFold {phrase : List Char} {c : Char}
    (hphrase : Text.simpleFold c ∉ phrase) (hsign : Text.simpleFold c ∉ ['/', ')'])
    (hdigit : Text.isDecimalDigit (Text.simpleFold c) = false) :
    ∀ p ∈ folded phrase ++ (dateShape ++ [(· == ')')]), p c = false := by
  have hdate : ∀ p ∈ dateShape ++ [(· == ')')],
      p = Text.isDecimalDigit ∨ p = (· == '/') ∨ p = (· == ')') := by
    simp [dateShape]
  intro p hp
  obtain hp | hp := List.mem_append.mp hp
  · obtain ⟨q, hq, rfl⟩ := List.mem_map.mp hp
    exact beq_false_of_ne fun heq => hphrase (heq ▸ hq)
  · obtain rfl | rfl | rfl := hdate p hp
    · exact Text.isDecimalDigit_of_simpleFold hdigit
    · refine beq_false_of_ne ?_
      rintro rfl
      exact hsign (by decide)
    · refine beq_false_of_ne ?_
      rintro rfl
      exact hsign (by decide)

/-- **A number of users takes no part in a day of expiry.** Its digits are not followed by a slash or
a bracket, no bracket stands in it, and its first letter is in no word for the expiry. -/
theorem expiryIn?_append_users {text ds : List Char} (h : TellsUsers text ds)
    (front rest : List Char) :
    expiryIn? (front ++ (text ++ rest)) = (expiryIn? front).or (expiryIn? rest) := by
  obtain ⟨-, hds, word, rfl, hword⟩ := h
  obtain ⟨s, word, rfl, hs, hword⟩ := List.map_eq_cons_iff.mp hword
  obtain ⟨u, word, rfl, hu, hword⟩ := List.map_eq_cons_iff.mp hword
  -- the first letter parts the text: nothing that is found in front of it ends in the text, and nothing
  -- that is found behind it begins there
  have hletter : ∀ p ∈ expiryClasses, p u = false := by
    refine rejected_of_simpleFold ?_ ?_ ?_ <;> rw [hu] <;> decide
  have hlast : ')' ∉ ds ++ [s] := by
    intro hmem
    obtain hmem | hmem := List.mem_append.mp hmem
    · exact hds.not_mem (by decide) hmem
    · rw [← List.mem_singleton.mp hmem] at hs
      exact absurd hs (by decide)
  have hfirst : ∀ c ∈ word, Text.simpleFold c ≠ '(' := by
    intro c hc heq
    have hmem := List.mem_map_of_mem (f := Text.simpleFold) hc
    rw [hword, heq] at hmem
    exact absurd hmem (by decide)
  have htext : front ++ (ds ++ s :: u :: word ++ rest) =
      (front ++ (ds ++ [s])) ++ u :: (word ++ rest) := by simp
  rw [htext, expiryIn?_append_cons hletter, expiryIn?_append_of_last hlast,
    expiryIn?_append_of_first hfirst]

/-- **A day of expiry is found behind any text** in which there is none. -/
theorem expiryIn?_append_expiry {text date : List Char} (h : TellsExpiry text date)
    (front rest : List Char) :
    expiryIn? (front ++ (text ++ rest)) = (expiryIn? front).or (some date) := by
  have hat : expiryAt? (text ++ rest) = some date :=
    expiryAt?_eq_some_iff.mpr ⟨text, rest, h, rfl⟩
  obtain ⟨-, phrase, rfl, hphrase⟩ := h
  obtain ⟨k, phrase, rfl, hk, hphrase⟩ := List.map_eq_cons_iff.mp hphrase
  have hbracket : ∀ p ∈ folded "expires ".toList ++ (dateShape ++ [(· == ')')]), p k = false := by
    refine rejected_of_simpleFold ?_ ?_ ?_ <;> rw [hk] <;> decide
  rw [expiryIn?_append]
  · rw [List.cons_append, List.cons_append] at hat ⊢
    rw [expiryIn?, hat, Option.some_or]
  · -- the bracket that opens is the first character of what tells a day of expiry, and no other one
    intro c front
    have hbegins : ∀ cs, beginsWith expiryClasses (c :: cs) =
        (Text.simpleFold c == '(' &&
          beginsWith (folded "expires ".toList ++ (dateShape ++ [(· == ')')])) cs) := fun _ => rfl
    rw [List.cons_append, List.cons_append, List.cons_append, hbegins, hbegins,
      beginsWith_append_cons hbracket]

/-! ## What takes no part in a number of users -/

/-- A character that is in no word for users takes no part in one. -/
theorem usersIn?_append {c : Char} (hc : Text.simpleFold c ∉ " users".toList) {run : List Char}
    (hrun : IsDecimal run) {cs : List Char}
    (hend : Text.isDecimalDigit c = true → EndsInNoDigit (run.reverse ++ cs)) (rest : List Char) :
    usersIn? run (cs ++ c :: rest) = (usersIn? run cs).or (usersIn? [] (c :: rest)) := by
  have hclasses : ∀ p ∈ folded " users".toList, p c = false := by
    intro p hp
    obtain ⟨q, hq, rfl⟩ := List.mem_map.mp hp
    exact beq_false_of_ne fun heq => hc (heq ▸ hq)
  have hword : ∀ cs, (Text.afterFolded? " users".toList (cs ++ c :: rest)).isSome =
      (Text.afterFolded? " users".toList cs).isSome := by
    intro cs
    rw [afterFolded?_eq, afterFolded?_eq, beginsWith_append_cons hclasses]
    split <;> rfl
  induction cs generalizing run with
  | nil =>
    rw [List.nil_append, usersIn?, usersIn?, usersIn?, Option.none_or]
    cases hdigit : Text.isDecimalDigit c with
    | true =>
      -- the run has no last digit, so it is empty
      cases run with
      | nil => rfl
      | cons r run =>
        have hr : Text.isDecimalDigit r = false := hend hdigit r (by simp)
        rw [hrun r List.mem_cons_self] at hr
        cases hr
    | false =>
      have hnone : (Text.afterFolded? " users".toList (c :: rest)).isSome = false := hword []
      rw [hnone]
      simp
  | cons d cs ih =>
    rw [List.cons_append, usersIn?, usersIn?, ← List.cons_append, hword]
    cases hd : Text.isDecimalDigit d with
    | true =>
      rw [if_pos rfl, if_pos rfl]
      exact ih (List.forall_mem_cons.mpr ⟨hd, hrun⟩) fun hdigit => by simpa using hend hdigit
    | false =>
      rw [if_neg Bool.false_ne_true, if_neg Bool.false_ne_true]
      split
      · rfl
      · exact ih (List.forall_mem_nil _) fun hdigit =>
          (endsInNoDigit_append_cons hd run.reverse cs).mp (hend hdigit)

/-- Digits are read into the run. -/
theorem usersIn?_decimal_append {ds : List Char} (hds : IsDecimal ds) (run rest : List Char) :
    usersIn? run (ds ++ rest) = usersIn? (ds.reverse ++ run) rest := by
  induction ds generalizing run with
  | nil => rfl
  | cons d ds ih =>
    obtain ⟨hd, hds⟩ := List.forall_mem_cons.mp hds
    rw [List.cons_append, usersIn?, if_pos hd, ih hds, List.reverse_cons, List.append_assoc,
      List.singleton_append]

/-- Where there is no letter u, no number of users is found. -/
theorem usersIn?_eq_none {cs : List Char} (h : ∀ c ∈ cs, Text.simpleFold c ≠ 'u')
    (run : List Char) : usersIn? run cs = none := by
  induction cs generalizing run with
  | nil => rfl
  | cons c cs ih =>
    have hcs := (List.forall_mem_cons.mp h).2
    have hnone : Text.afterFolded? " users".toList (c :: cs) = none := by
      refine Option.eq_none_iff_forall_ne_some.mpr fun rest hrest => ?_
      obtain ⟨word, hword, hfold⟩ := Text.afterFolded?_eq_some_iff.mp hrest
      have hu : 'u' ∈ word.map Text.simpleFold := by rw [hfold]; decide
      obtain ⟨u, hmem, hu⟩ := List.mem_map.mp hu
      exact h u (hword ▸ List.mem_append_left rest hmem) hu
    rw [usersIn?, hnone, ih hcs, ih hcs]
    simp

/-- A character that is neither a digit nor in the word for users parts the numbers in front of it
from those behind it. -/
theorem usersIn?_append_cons {c : Char} (hc : Text.simpleFold c ∉ " users".toList)
    (hdigit : Text.isDecimalDigit c = false) (front rest : List Char) :
    usersIn? [] (front ++ c :: rest) = (usersIn? [] front).or (usersIn? [] rest) := by
  have hrest : usersIn? [] (c :: rest) = usersIn? [] rest := by
    rw [usersIn?, hdigit]
    simp
  rw [usersIn?_append hc (List.forall_mem_nil _) (fun h => absurd (hdigit.symm.trans h)
    Bool.false_ne_true), hrest]

/-- **A day of expiry takes no part in a number of users.** Its digits stand in front of slashes and
a bracket, and there is no letter u in it. -/
theorem usersIn?_append_expiry {text date : List Char} (h : TellsExpiry text date)
    (front rest : List Char) :
    usersIn? [] (front ++ (text ++ rest)) = (usersIn? [] front).or (usersIn? [] rest) := by
  obtain ⟨⟨year, month, day, rfl, ⟨hyear, -⟩, ⟨hmonth, -⟩, hday, -⟩, phrase, rfl, hphrase⟩ := h
  obtain ⟨k, phrase, rfl, hk, hfold⟩ := List.map_eq_cons_iff.mp hphrase
  replace hfold : phrase.map Text.simpleFold = "expires ".toList := hfold
  -- the brackets and the slashes part the text
  have htext : front ++ (k :: phrase ++ (year ++ '/' :: (month ++ '/' :: day) ++ [')']) ++ rest) =
      front ++ k :: ((phrase ++ year) ++ '/' :: (month ++ '/' :: (day ++ ')' :: rest))) := by simp
  have hslash : Text.simpleFold '/' ∉ " users".toList ∧ Text.isDecimalDigit '/' = false := by decide
  have hbracket : Text.simpleFold ')' ∉ " users".toList ∧ Text.isDecimalDigit ')' = false := by decide
  have hletter : ∀ c ∈ phrase ++ year, Text.simpleFold c ≠ 'u' := by
    refine List.forall_mem_append.mpr ⟨fun c hc heq => ?_, hyear.simpleFold_ne (by decide)⟩
    have hmem := List.mem_map_of_mem (f := Text.simpleFold) hc
    rw [hfold, heq] at hmem
    exact absurd hmem (by decide)
  rw [htext, usersIn?_append_cons (by rw [hk]; decide)
      (Text.isDecimalDigit_of_simpleFold (by rw [hk]; decide)),
    usersIn?_append_cons hslash.1 hslash.2, usersIn?_append_cons hslash.1 hslash.2,
    usersIn?_append_cons hbracket.1 hbracket.2, usersIn?_eq_none hletter,
    usersIn?_eq_none (hmonth.simpleFold_ne (by decide)),
    usersIn?_eq_none (hday.simpleFold_ne (by decide)), Option.none_or, Option.none_or, Option.none_or]

/-- **A number of users is found behind any text** in which there is none and that does not end in a
digit. -/
theorem usersIn?_append_users {text ds : List Char} (h : TellsUsers text ds) {front : List Char}
    (hfront : EndsInNoDigit front) (rest : List Char) :
    usersIn? [] (front ++ (text ++ rest)) = (usersIn? [] front).or (some ds) := by
  obtain ⟨hne, hds, word, rfl, hword⟩ := h
  -- the run is read up to the word behind it
  have hfound : usersIn? [] (ds ++ word ++ rest) = some ds := by
    obtain ⟨s, word', rfl, -⟩ := List.map_eq_cons_iff.mp hword
    have hs : Text.isDecimalDigit s = false :=
      isDecimalDigit_head?_word hword rest s rfl
    have hafter : Text.afterFolded? " users".toList (s :: word' ++ rest) = some rest :=
      Text.afterFolded?_eq_some_iff.mpr ⟨_, rfl, hword⟩
    rw [List.append_assoc, usersIn?_decimal_append hds, List.append_nil, List.cons_append, usersIn?,
      ← List.cons_append, hafter, hs]
    simp [hne]
  obtain ⟨d, ds', rfl⟩ := List.exists_cons_of_ne_nil hne
  have hd : Text.simpleFold d ∉ " users".toList := by
    have hletters : ∀ letter ∈ " users".toList, (!Text.isDecimalDigit letter) = true :=
      List.all_eq_true.mp (by decide)
    intro hmem
    have hletter : Text.isDecimalDigit (Text.simpleFold d) = false := by
      simpa using hletters _ hmem
    exact hds.simpleFold_ne hletter d List.mem_cons_self rfl
  rw [List.cons_append, List.cons_append] at hfound ⊢
  rw [usersIn?_append hd (List.forall_mem_nil _) (fun _ => hfront), hfound]

/-! ## The license of a summary -/

/-- The number that the digits of a number of users write, zero if it does not fit or a digit is not
ASCII. -/
def usersNumber (ds : List Char) : Int32 :=
  ((Numeral.natural? ds).bind fun n : Nat => Numeral.fit32? n).getD 0

/-- The start of the day that a date of ten characters names, `unset` if there is no such day or a
digit is not ASCII. -/
def expiryTime (date : List Char) : Timestamp :=
  ((Date.ofDigits? (date.take 4) ((date.drop 5).take 2) (date.drop 8)).map .midnight).getD .unset

/-- The day of a date of ten characters. -/
theorem parse_dateText {date : List Char} (h : IsDateText date) :
    Timestamp.parse (String.ofList date) = expiryTime date := by
  obtain ⟨year, month, day, rfl, ⟨hyear, hyearlen⟩, ⟨hmonth, hmonthlen⟩, hday, hdaylen⟩ := h
  have htakeyear : (year ++ '/' :: (month ++ '/' :: day)).take 4 = year := List.take_left' hyearlen
  have hdropyear : (year ++ '/' :: (month ++ '/' :: day)).drop 5 = month ++ '/' :: day := by
    rw [List.append_cons]
    exact List.drop_left' (by simp [hyearlen])
  have htakemonth : (month ++ '/' :: day).take 2 = month := List.take_left' hmonthlen
  have hdropmonth : (year ++ '/' :: (month ++ '/' :: day)).drop 8 = day :=
    calc (year ++ '/' :: (month ++ '/' :: day)).drop 8
        = ((year ++ '/' :: (month ++ '/' :: day)).drop 5).drop 3 := by rw [List.drop_drop]
      _ = (month ++ ['/'] ++ day).drop 3 := by rw [hdropyear, List.append_cons]
      _ = day := List.drop_left' (by simp [hmonthlen])
  rw [Timestamp.parse, Timestamp.parse?_of_decimal hyear hmonth hday hyearlen hmonthlen hdaylen,
    expiryTime, htakeyear, hdropyear, htakemonth, hdropmonth]

/-- Relates a text to the digits and the date that are found in it: those of the first number of users
and the first day of expiry, which are also what the searches for their patterns find. -/
structure Found (t : List Char) (users date : Option (List Char)) : Prop where
  /-- No number of users stands in front of these digits. -/
  users_first : First (UsersAt t) users
  /-- A search finds these digits. -/
  users_pattern : usersPattern.search? t = users
  /-- No day of expiry stands in front of this date. -/
  date_first : First (ExpiryAt t) date
  /-- A search finds this date. -/
  date_pattern : expiryPattern.search? t = date

theorem found_scans (t : List Char) : Found t (usersIn? [] t) (expiryIn? t) where
  users_first := first_usersIn? t
  users_pattern := search?_usersPattern t
  date_first := first_expiryIn? t
  date_pattern := search?_expiryPattern t

/-- Holds of the texts in which neither fact is found, and whose end is not taken for the digits of
a number. -/
def Silent (t : List Char) : Prop := Found t none none ∧ EndsInNoDigit t

/-- The license with the two facts, and nothing else. -/
def ofFacts (users date : Option (List Char)) : License where
  users := (users.map usersNumber).getD 0
  expires := (date.map expiryTime).getD .unset

/-- **The license of a summary has the first number of users and the first day of expiry.** -/
theorem ofSummary?_eq (summary : String) :
    ofSummary? summary =
      if Text.trim summary.toList = [] ∨ Text.trim summary.toList = "none".toList then none
      else some (ofFacts (usersIn? [] (Text.trim summary.toList))
        (expiryIn? (Text.trim summary.toList))) := by
  have husers : ∀ t, (usersIn? [] t).map (fun ds => intValue (String.ofList ds)) =
      (usersIn? [] t).map usersNumber := by
    intro t
    refine Option.map_congr fun ds hds => intValue_of_decimal ?_
    have hfirst := (found_scans t).users_first
    rw [hds] at hfirst
    obtain ⟨before, ⟨-, text, after, htells, -⟩, -⟩ := hfirst
    exact htells.2.1
  have hexpires : ∀ t, (expiryIn? t).map (fun date => Timestamp.parse (String.ofList date)) =
      (expiryIn? t).map expiryTime := by
    intro t
    refine Option.map_congr fun date hdate => parse_dateText ?_
    have hfirst := (found_scans t).date_first
    rw [hdate] at hfirst
    obtain ⟨before, ⟨text, after, htells, -⟩, -⟩ := hfirst
    exact htells.1
  simp only [ofSummary?, husers, hexpires]
  rfl

theorem Silent.usersIn?_eq {t : List Char} (h : Silent t) : usersIn? [] t = none :=
  (search?_usersPattern t).symm.trans h.1.users_pattern

theorem Silent.expiryIn?_eq {t : List Char} (h : Silent t) : expiryIn? t = none :=
  (search?_expiryPattern t).symm.trans h.1.date_pattern

/-- **What a summary says about the license.** With its trimmed text:

* there is a license unless the text is empty or the word `none`;
* it has the first number of users and the first day of expiry in the text, each of them what a
  search for its pattern finds, and else it is as a license without any facts;
* a day of expiry that is told anywhere leaves the search for the number of users as if the texts in
  front of it and behind it were searched one after the other, and the other way round;
* so the two facts are found in either order, in front of any text, between texts in which nothing
  is found. -/
theorem ofSummary?_exact {summary : String} {t : List Char} (ht : Text.trim summary.toList = t) :
    (ofSummary? summary = none ↔ t = [] ∨ t = "none".toList) ∧
    (¬(t = [] ∨ t = "none".toList) →
      ∃ users date, Found t users date ∧ ofSummary? summary = some (ofFacts users date)) ∧
    (∀ front text rest, t = front ++ (text ++ rest) →
      (∀ date, TellsExpiry text date → usersPattern.search? t =
        (usersPattern.search? front).or (usersPattern.search? rest)) ∧
      (∀ ds, TellsUsers text ds → expiryPattern.search? t =
        (expiryPattern.search? front).or (expiryPattern.search? rest))) ∧
    ∀ front users between expiry rest ds date, Silent front → TellsUsers users ds → Silent between →
      TellsExpiry expiry date →
      (t = front ++ (users ++ (between ++ (expiry ++ rest))) ∨
        t = front ++ (expiry ++ (between ++ (users ++ rest)))) →
      ofSummary? summary = some (ofFacts (some ds) (some date)) := by
  have hlicense := ofSummary?_eq summary
  rw [ht] at hlicense
  refine ⟨?_, ?_, ?_, ?_⟩
  · rw [hlicense]
    split
    · rename_i hnone
      exact iff_of_true rfl hnone
    · rename_i hsome
      exact iff_of_false (Option.some_ne_none _) hsome
  · intro hne
    rw [if_neg hne] at hlicense
    exact ⟨_, _, found_scans t, hlicense⟩
  · rintro front text rest rfl
    refine ⟨fun date htells => ?_, fun ds htells => ?_⟩
    · rw [search?_usersPattern, search?_usersPattern, search?_usersPattern]
      exact usersIn?_append_expiry htells front rest
    · rw [search?_expiryPattern, search?_expiryPattern, search?_expiryPattern]
      exact expiryIn?_append_users htells front rest
  · intro front users between expiry rest ds date hfront husers hbetween hexpiry horder
    have hfacts : usersIn? [] t = some ds ∧ expiryIn? t = some date := by
      obtain rfl | rfl := horder
      · -- the number is behind the text in front; the date is behind that and the text between
        rw [usersIn?_append_users husers hfront.2, hfront.usersIn?_eq,
          expiryIn?_append_users husers, hfront.expiryIn?_eq, expiryIn?_append_expiry hexpiry,
          hbetween.expiryIn?_eq]
        exact ⟨rfl, rfl⟩
      · rw [usersIn?_append_expiry hexpiry, hfront.usersIn?_eq,
          usersIn?_append_users husers hbetween.2, hbetween.usersIn?_eq,
          expiryIn?_append_expiry hexpiry, hfront.expiryIn?_eq]
        exact ⟨rfl, rfl⟩
    -- the word `none` tells nothing
    have hne : ¬(t = [] ∨ t = "none".toList) := by
      have hempty : expiryIn? [] = none ∧ expiryIn? "none".toList = none := by decide
      rintro (rfl | rfl)
      · exact nomatch hempty.1.symm.trans hfacts.2
      · exact nomatch hempty.2.symm.trans hfacts.2
    rw [hlicense, if_neg hne, hfacts.1, hfacts.2]

/-- A summary with a number that no word for users follows, a date in front of the number that counts,
and another number and date behind them. The word is written with a long s. -/
theorem ofSummary?_of_date_in_front :
    ofSummary? " 12 seats (expires 2025/06/30), 250 U\u017FERS 7 users (expires 2026/01/01)\t" =
      some { users := 250, expires := .midnight ⟨2025, 6, 30, by decide⟩ } := by
  have hfront : Silent "12 seats ".toList :=
    ⟨found_scans "12 seats ".toList, by rintro c ⟨rfl⟩; decide⟩
  have hbetween : Silent ", ".toList := ⟨found_scans ", ".toList, by rintro c ⟨rfl⟩; decide⟩
  have husers : TellsUsers "250 U\u017FERS".toList "250".toList :=
    ⟨by decide, List.all_eq_true.mp (by decide), " U\u017FERS".toList, by decide, by decide⟩
  have hexpiry : TellsExpiry "(expires 2025/06/30)".toList "2025/06/30".toList := by
    refine ⟨⟨"2025".toList, "06".toList, "30".toList, by decide, ⟨?_, by decide⟩, ⟨?_, by decide⟩, ?_,
      by decide⟩, "(expires ".toList, by decide, by decide⟩
    all_goals exact List.all_eq_true.mp (by decide)
  have htrim : Text.trim
      " 12 seats (expires 2025/06/30), 250 U\u017FERS 7 users (expires 2026/01/01)\t".toList =
        "12 seats (expires 2025/06/30), 250 U\u017FERS 7 users (expires 2026/01/01)".toList := by
    decide
  have hnumber : usersNumber "250".toList = 250 := by decide
  have hday : expiryTime "2025/06/30".toList = .midnight ⟨2025, 6, 30, by decide⟩ := by decide
  rw [(ofSummary?_exact htrim).2.2.2 "12 seats ".toList "250 U\u017FERS".toList ", ".toList
    "(expires 2025/06/30)".toList " 7 users (expires 2026/01/01)".toList _ _ hfront husers hbetween
    hexpiry (Or.inr (by decide)), ofFacts, Option.map_some, Option.map_some, Option.getD_some,
    Option.getD_some, hnumber, hday]

end License

end DepotClient
