import DepotClient.Specifier.Basic

/-! # Ranges of revisions

A range of revisions is read from any text whatever. Two sides with one comma between them give a
number each, zero if the side is none; any other text gives zero twice. The two numbers are put in
ascending order, so that neither the order of the sides nor a second reading makes a difference.

* **`Specifier.revisionsBetween_eq`** — the bounds of a range are the smaller and the larger number;
* **`Specifier.rangeOfChars_sides`** — two sides with a comma between them are read side by side;
* **`Specifier.WrittenBound`** — a number with all that may stand around it on its side, and
  **`WrittenBound.rangeBound_chars`**, which reads it;
* **`Specifier.readRange_text_revisionsBetween`** — a range is read back from its text;
* **`Specifier.readRange_exact`** — what is read is an ascending range that is read back, is the
  same whichever side comes first, and has the bounds that the sides were written with. -/

namespace DepotClient.Specifier

/-! ## Ascending bounds -/

theorem revisionsBetween_eq (l u : Int32) :
    revisionsBetween l u = range (revision (min l u)) (revision (max l u)) := by
  have hmin : min l u = if l ≤ u then l else u := rfl
  have hmax : max l u = if l ≤ u then u else l := rfl
  obtain hlt | hle := Int32.lt_or_le u l
  · have hnot : ¬ l ≤ u := Int32.not_le.mpr hlt
    rw [revisionsBetween_of_lt hlt, hmin, hmax, if_neg hnot, if_neg hnot]
  · rw [revisionsBetween_of_le hle, hmin, hmax, if_pos hle, if_pos hle]

/-- The bounds may be given in either order. -/
theorem revisionsBetween_comm (l u : Int32) : revisionsBetween l u = revisionsBetween u l := by
  obtain hlt | hle := Int32.lt_or_le u l
  · rw [revisionsBetween_of_lt hlt, revisionsBetween_of_le (Int32.le_of_lt hlt)]
  · obtain hlt | hge := Int32.lt_or_le l u
    · rw [revisionsBetween_of_le hle, revisionsBetween_of_lt hlt]
    · rw [Int32.le_antisymm hle hge]

/-- The bounds are in ascending order, however they are given. -/
theorem exists_le_revisionsBetween (l u : Int32) :
    ∃ l' u', l' ≤ u' ∧ revisionsBetween l u = range (revision l') (revision u') := by
  obtain hlt | hle := Int32.lt_or_le u l
  · exact ⟨u, l, Int32.le_of_lt hlt, revisionsBetween_of_lt hlt⟩
  · exact ⟨l, u, hle, revisionsBetween_of_le hle⟩

/-! ## Sides -/

/-- Any text is read as some range of revisions. -/
theorem exists_readRange (spec : String) : ∃ l u, readRange spec = revisionsBetween l u := by
  unfold readRange rangeOfChars
  split
  · exact ⟨_, _, rfl⟩
  · exact ⟨0, 0, rfl⟩

/-- Two sides with the only comma between them are read side by side. -/
theorem rangeOfChars_sides {left right : List Char} (hleft : ',' ∉ left) (hright : ',' ∉ right) :
    rangeOfChars (left ++ ',' :: right) =
      revisionsBetween (rangeBound left) (rangeBound right) := by
  have hwhole : ∀ side : List Char, ',' ∉ side → Text.cut (· == ',') side = [side] := by
    intro side hside
    refine Text.cut_eq_singleton fun c hc => beq_false_of_ne ?_
    rintro rfl
    exact hside hc
  have hsides : Text.cut (· == ',') (left ++ ',' :: right) = [left, right] := by
    rw [Text.cut_append_cons (by decide), hwhole left hleft, hwhole right hright]
    rfl
  rw [rangeOfChars, hsides]

/-- A number on one side of a range, with all that may stand around it there: one character that is
dropped, and blanks. -/
structure WrittenBound where
  /-- The number. -/
  number : Int32
  /-- The character in front of the number. -/
  sign : Char
  /-- What stands in front of both. -/
  before : String
  /-- What stands behind both. -/
  after : String
  /-- A blank in front of the number would be dropped before the sign is. -/
  isBlank_sign : Text.isBlank sign = false
  /-- A comma would be taken for the end of the side. -/
  sign_ne_comma : sign ≠ ','
  isBlank_before : ∀ c ∈ before.toList, Text.isBlank c = true
  isBlank_after : ∀ c ∈ after.toList, Text.isBlank c = true

namespace WrittenBound

/-- The text of a side. -/
def text (b : WrittenBound) : String :=
  b.before ++ String.singleton b.sign ++ Numeral.text b.number.toInt ++ b.after

/-- The characters of a side. -/
def chars (b : WrittenBound) : List Char :=
  b.before.toList ++ (b.sign :: Numeral.ofInteger b.number.toInt ++ b.after.toList)

theorem toList_text (b : WrittenBound) : b.text.toList = b.chars := by
  simp [text, chars, Numeral.text]

/-- No comma stands in a side. -/
theorem comma_not_mem_chars (b : WrittenBound) : ',' ∉ b.chars := by
  have hblank : ∀ text : String, (∀ c ∈ text.toList, Text.isBlank c = true) → ',' ∉ text.toList :=
    fun text h hmem => absurd (h ',' hmem) (by decide)
  have hnumber : ',' ∉ Numeral.ofInteger b.number.toInt :=
    Numeral.not_mem_ofInteger (by decide) (by decide)
  simp only [chars, List.mem_append, List.mem_cons, not_or]
  exact ⟨hblank _ b.isBlank_before, ⟨b.sign_ne_comma.symm, hnumber⟩, hblank _ b.isBlank_after⟩

/-- **The number of a side is read from it**: the blanks around are trimmed off, and of what is left
the first character is dropped. -/
theorem rangeBound_chars (b : WrittenBound) : rangeBound b.chars = b.number := by
  have hend : ∀ c ∈ (b.sign :: Numeral.ofInteger b.number.toInt).getLast?,
      Text.isBlank c = false := by
    intro c hc
    obtain rfl | hmem := List.mem_cons.mp (List.mem_of_mem_getLast? hc)
    · exact b.isBlank_sign
    · exact Numeral.isBlank_of_mem_ofInteger hmem
  have htrim : Text.trim b.chars = b.sign :: Numeral.ofInteger b.number.toInt :=
    Text.trim_blanks_around (List.cons_ne_nil _ _) (fun c hc => Option.some.inj hc ▸ b.isBlank_sign)
      hend b.isBlank_before b.isBlank_after
  rw [rangeBound, htrim, List.drop_succ_cons, List.drop_zero, Numeral.int32?_ofInteger,
    Option.getD_some]

/-- A side as it stands in the text of a range: an `#` in front and no blanks. -/
def plain (n : Int32) : WrittenBound where
  number := n
  sign := '#'
  before := ""
  after := ""
  isBlank_sign := by decide
  sign_ne_comma := by decide
  isBlank_before := by simp
  isBlank_after := by simp

theorem chars_plain (n : Int32) : (plain n).chars = (revision n).chars := by
  rw [chars, plain, String.toList_empty, List.nil_append, List.append_nil, chars_revision]

end WrittenBound

/-- Two written sides are read as the range between their numbers. -/
theorem rangeOfChars_written (a b : WrittenBound) :
    rangeOfChars (a.chars ++ ',' :: b.chars) = revisionsBetween a.number b.number := by
  rw [rangeOfChars_sides a.comma_not_mem_chars b.comma_not_mem_chars, a.rangeBound_chars,
    b.rangeBound_chars]

/-! ## Texts of ranges -/

/-- The text of a range between two revisions, in whatever order, is read as two plain sides. -/
theorem rangeOfChars_chars (l u : Int32) :
    rangeOfChars (range (revision l) (revision u)).chars = revisionsBetween l u := by
  have hsides := rangeOfChars_written (.plain l) (.plain u)
  rw [WrittenBound.chars_plain, WrittenBound.chars_plain] at hsides
  rw [chars_range]
  exact hsides

/-- **A range of revisions is read back from its text.** -/
theorem readRange_text_revisionsBetween (l u : Int32) :
    readRange (revisionsBetween l u).text = revisionsBetween l u := by
  obtain ⟨l', u', hle, hascending⟩ := exists_le_revisionsBetween l u
  rw [hascending, readRange, toList_text, rangeOfChars_chars, revisionsBetween_of_le hle]

/-- A text with a comma is read as a range. -/
theorem ofText_of_comma {spec : String} (h : ',' ∈ spec.toList) :
    ofText spec = .ok (readRange spec) := by
  rw [ofText, if_pos h]

theorem comma_mem_text_revisionsBetween (l u : Int32) :
    ',' ∈ (revisionsBetween l u).text.toList := by
  rw [revisionsBetween_eq, toList_text, chars_range]
  exact List.mem_append_right _ List.mem_cons_self

theorem ofText_text_revisionsBetween (l u : Int32) :
    ofText (revisionsBetween l u).text = .ok (revisionsBetween l u) := by
  rw [ofText_of_comma (comma_mem_text_revisionsBetween l u), readRange_text_revisionsBetween]

/-- **Ranges of revisions are read exactly.** Every text gives a range with ascending bounds, and
the text of this range gives it again; the two sides may change places; and two sides with a number
each, blanks around it and one other character in front of it, give the range between the
numbers. -/
theorem readRange_exact :
    (∀ spec : String,
      (∃ l u : Int32, l ≤ u ∧ readRange spec = range (revision l) (revision u)) ∧
      readRange (readRange spec).text = readRange spec ∧
      ofText (readRange spec).text = .ok (readRange spec)) ∧
    (∀ a b : String, ',' ∉ a.toList → ',' ∉ b.toList →
      readRange (a ++ "," ++ b) = readRange (b ++ "," ++ a)) ∧
    ∀ a b : WrittenBound, readRange (a.text ++ "," ++ b.text) =
      range (revision (min a.number b.number)) (revision (max a.number b.number)) := by
  have hjoin : ∀ a b : String, (a ++ "," ++ b).toList = a.toList ++ ',' :: b.toList := by
    intro a b
    simp
  refine ⟨fun spec => ?_, fun a b ha hb => ?_, fun a b => ?_⟩
  · obtain ⟨l, u, hread⟩ := exists_readRange spec
    rw [hread]
    exact ⟨exists_le_revisionsBetween l u, readRange_text_revisionsBetween l u,
      ofText_text_revisionsBetween l u⟩
  · rw [readRange, readRange, hjoin, hjoin, rangeOfChars_sides ha hb, rangeOfChars_sides hb ha,
      revisionsBetween_comm]
  · rw [readRange, hjoin, a.toList_text, b.toList_text, rangeOfChars_written, revisionsBetween_eq]

/-- A side without a number and the smallest number, in both orders. -/
theorem readRange_of_smallest :
    (',' ∉ "\u3000@-2147483648 ".toList ∧ ',' ∉ "#head".toList) ∧
      readRange ("\u3000@-2147483648 " ++ "," ++ "#head") =
        readRange ("#head" ++ "," ++ "\u3000@-2147483648 ") ∧
      readRange ("#head" ++ "," ++ "\u3000@-2147483648 ") =
        range (revision (-2147483648)) (revision 0) :=
  ⟨by decide, readRange_exact.2.1 _ _ (by decide) (by decide), rfl⟩

end DepotClient.Specifier
