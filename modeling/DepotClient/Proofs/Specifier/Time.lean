import Mathlib.Data.List.DropRight
import DepotClient.Proofs.Calendar.Written
import DepotClient.Proofs.Specifier.RoundTrip

/-! # A text shows one time at most

The six layouts in which a server time is read are tried one after the other, and behind the `@` of
a specifier one of them is tried alone, on a text that is not trimmed. None of this makes a
difference. No text is read in two layouts, so they can be tried in any order. And a text that is
read in a layout ends with its last number, while the blanks in front of it are skipped anyway, so
it is read as well when it is trimmed.

* **`Layout.length_filter_isSome_read?_le`** — of the layouts, in whichever order, one at most accepts
  a text;
* **`Layout.read?_eq_some_iff_trim`** — a text is read in a layout just if it does not end with a
  blank and is read when it is trimmed;
* **`Specifier.ofChars?_eq_date_iff`** — a specifier shows a time just if the layout of specifiers
  reads it behind the `@`;
* **`Timestamp.one_time_at_most`** — so a text has one reading as a time, whichever way it is read. -/

namespace DepotClient

namespace Layout

/-- **At most one of the layouts accepts a text.** -/
theorem length_filter_isSome_read?_le {order : List Layout}
    (horder : order.Perm (dateTimes ++ dates)) (cs : List Char) :
    (order.filter fun layout => (layout.read? cs).isSome).length ≤ 1 := by
  have hnodup : (order.filter fun layout => (layout.read? cs).isSome).Nodup :=
    (horder.nodup_iff.mpr (by decide)).filter _
  have hmem : ∀ layout ∈ order.filter (fun layout => (layout.read? cs).isSome),
      layout ∈ dateTimes ++ dates ∧ ∃ t, layout.read? cs = some t := by
    intro layout h
    obtain ⟨hlayout, haccepts⟩ := List.mem_filter.mp h
    exact ⟨horder.mem_iff.mp hlayout, Option.isSome_iff_exists.mp haccepts⟩
  cases haccepting : order.filter fun layout => (layout.read? cs).isSome with
  | nil => exact Nat.zero_le 1
  | cons layout others =>
    cases others with
    | nil => exact Nat.le_refl 1
    | cons layout' others =>
      -- two layouts that accept the text are the same, and no layout is listed twice
      rw [haccepting] at hnodup hmem
      obtain ⟨hlayout, t, hread⟩ := hmem layout (by simp)
      obtain ⟨hlayout', t', hread'⟩ := hmem layout' (by simp)
      obtain rfl := eq_of_read? hlayout hlayout' hread hread'
      simp at hnodup

end Layout

/-! ## Texts that are not trimmed -/

/-- **What is taken for a solid part ends with no blank.** -/
theorem LayoutItem.exists_last_of_takes {item : LayoutItem} (hsolid : item.isSolid = true)
    {taken : List Char} (h : item.Takes taken) :
    ∃ front c, taken = front ++ [c] ∧ Text.isBlank c = false := by
  cases item with
  | sign c => exact ⟨[], c, h, by simpa [LayoutItem.isSolid] using hsolid⟩
  | space => cases hsolid
  | year | month | day | hour | minute | second =>
    obtain ⟨gap, number, -, hnumber, rfl⟩ := h
    have hlast := List.getLast_mem hnumber.1
    refine ⟨gap ++ number.dropLast, number.getLast hnumber.1, ?_, hnumber.isBlank_of_mem hlast⟩
    rw [List.append_assoc, List.dropLast_concat_getLast hnumber.1]

namespace Layout

/-- **What is read in a layout ends with no blank**, if its last part is solid. -/
theorem exists_last_of_readParts? {layout : Layout} {item : LayoutItem}
    (hsolid : item.isSolid = true) {p q : TimeParts} {cs rest : List Char}
    (h : Layout.readParts? (layout ++ [item]) p cs = some (q, rest)) :
    ∃ front c, cs = front ++ [c] ++ rest ∧ Text.isBlank c = false := by
  induction layout generalizing p cs with
  | nil =>
    obtain ⟨⟨p', cs'⟩, hitem, hrest⟩ := Option.bind_eq_some_iff.mp h
    obtain ⟨-, rfl⟩ := Prod.mk.inj (Option.some.inj hrest)
    obtain ⟨taken, htakes, rfl⟩ := LayoutItem.exists_takes_of_read? hitem
    obtain ⟨front, c, rfl, hc⟩ := LayoutItem.exists_last_of_takes hsolid htakes
    exact ⟨front, c, rfl, hc⟩
  | cons first layout ih =>
    obtain ⟨⟨p', cs'⟩, hitem, hrest⟩ := Option.bind_eq_some_iff.mp h
    obtain ⟨taken, -, rfl⟩ := LayoutItem.exists_takes_of_read? hitem
    obtain ⟨front, c, rfl, hc⟩ := ih hrest
    exact ⟨taken ++ front, c, by simp only [List.append_assoc], hc⟩

/-- A text that is read does not end with a blank. -/
theorem isBlank_getLast?_of_read? {layout : Layout} (h : layout ∈ dateTimes ++ dates)
    {cs : List Char} {t : Timestamp} (hread : layout.read? cs = some t) :
    ∀ c ∈ cs.getLast?, Text.isBlank c = false := by
  obtain ⟨-, hlast⟩ := isSolid_ends h
  obtain ⟨q, hparts⟩ := exists_readParts?_of_read? hread
  obtain rfl | ⟨front, item, rfl⟩ := List.eq_nil_or_concat' layout
  · exact absurd h (by decide)
  · obtain ⟨front, c, rfl, hc⟩ := exists_last_of_readParts? (hlast item (by simp)) hparts
    simpa using hc

/-- Blanks in front of a text make no difference to a layout. -/
theorem read?_trimStart {layout : Layout} (h : layout ∈ dateTimes ++ dates) (cs : List Char) :
    layout.read? (Text.trimStart cs) = layout.read? cs := by
  obtain ⟨others, rfl⟩ := List.head?_eq_some_iff.mp (head?_eq_year h)
  have htwice : Text.trimStart (Text.trimStart cs) = Text.trimStart cs :=
    List.dropWhile_idempotent Text.isBlank cs
  simp only [Layout.read?, Layout.readParts?, LayoutItem.read?, htwice]

end Layout

/-- Nothing is trimmed behind a text that does not end with a blank. -/
theorem Text.trim_eq_trimStart {cs : List Char} (h : ∀ c ∈ cs.getLast?, isBlank c = false) :
    trim cs = trimStart cs := by
  refine trimEnd_eq_self fun c hc => h c ?_
  obtain ⟨gap, -, hgap⟩ := exists_blanks_append_trimStart cs
  rw [hgap, List.getLast?_append, Option.mem_def.mp hc, Option.some_or]
  rfl

/-- **A text is read as it is just if it does not end with a blank and is read when it is
trimmed.** -/
theorem Layout.read?_eq_some_iff_trim {layout : Layout} (h : layout ∈ dateTimes ++ dates)
    {cs : List Char} {t : Timestamp} :
    layout.read? cs = some t ↔
      (∀ c ∈ cs.getLast?, Text.isBlank c = false) ∧ layout.read? (Text.trim cs) = some t := by
  constructor
  · intro hread
    have hend := isBlank_getLast?_of_read? h hread
    exact ⟨hend, by rw [Text.trim_eq_trimStart hend, read?_trimStart h, hread]⟩
  · rintro ⟨hend, hread⟩
    rw [← read?_trimStart h, ← Text.trim_eq_trimStart hend, hread]

/-! ## Times behind an `@` -/

namespace Specifier

/-- **A specifier shows a time just if the layout of specifiers reads it** behind the `@`: no text
with an `#` in it is read in this layout, so that no other rule comes first. -/
theorem ofChars?_eq_date_iff {cs : List Char} {t : Timestamp} :
    ofChars? ('@' :: cs) = some (date t) ↔ Layout.specifier.read? cs = some t := by
  constructor
  · intro h
    by_cases hhash : '#' ∈ cs
    · -- behind an `#` stands a number or a name
      obtain ⟨rest, hrest⟩ : ∃ rest, behind? '#' ('@' :: cs) = some rest := by
        refine Option.ne_none_iff_exists'.mp fun hnone => ?_
        exact behind?_eq_none_iff.mp hnone (List.mem_cons_of_mem '@' hhash)
      have hkeyword : ∀ k ∈ keywords, '@' :: cs ≠ '#' :: k.toList := fun k _ heq =>
        absurd (List.cons.inj heq).1 (by decide)
      rw [ofChars?_of_behind_hash hkeyword hrest] at h
      obtain ⟨n, -, heq⟩ | ⟨-, -, heq⟩ := numberOrName?_eq_some_iff.mp h <;> cases heq
    · rw [ofChars?_at hhash] at h
      cases htime : Layout.specifier.read? cs with
      | some t' =>
        rw [ofAt?_of_time htime] at h
        cases h
        rfl
      | none =>
        cases hshelf : behindShelfSign? ('@' :: cs) with
        | some number =>
          rw [ofAt?_of_shelf htime hshelf] at h
          obtain ⟨n, -, heq⟩ := Option.map_eq_some_iff.mp h
          cases heq
        | none =>
          rw [ofAt?_of_name htime hshelf] at h
          obtain ⟨n, -, heq⟩ | ⟨-, -, heq⟩ := numberOrName?_eq_some_iff.mp h <;> cases heq
  · intro h
    have hhash : '#' ∉ cs := by
      rw [← List.count_eq_zero, Layout.count_of_read? (by decide) h]
      decide
    rw [ofChars?_at hhash, ofAt?_of_time h]

end Specifier

/-! ## One time at most -/

/-- **A text shows one time at most, whichever way it is read.** Of the six layouts of server times
one at most accepts it, so that they can be tried in any order. And the time that a specifier shows
behind its `@` is the server time that the text shows there; a specifier only refuses blanks behind
the time. -/
theorem Timestamp.one_time_at_most :
    (∀ (s : String) (order : List Layout), order.Perm (Layout.dateTimes ++ Layout.dates) →
      (order.filter fun layout => (layout.read? (Text.trim s.toList)).isSome).length ≤ 1 ∧
        order.findSome? (fun layout => layout.read? (Text.trim s.toList)) = parse? s) ∧
    ∀ (x : String) (t : Timestamp),
      (Specifier.parse? ("@" ++ x) = some (.date t) → parse? x = some t) ∧
        (Specifier.parse? ("@" ++ x) = some (.date t) ↔
          (∀ c ∈ x.toList.getLast?, Text.isBlank c = false) ∧
            Layout.specifier.read? (Text.trim x.toList) = some t) := by
  have hspecifier : Layout.specifier ∈ Layout.dateTimes ++ Layout.dates := by decide
  have hdate : ∀ (x : String) (t : Timestamp),
      Specifier.parse? ("@" ++ x) = some (.date t) ↔ Layout.specifier.read? x.toList = some t := by
    intro x t
    have htext : ("@" ++ x).toList = '@' :: x.toList := by simp
    rw [Specifier.parse?, htext, Specifier.ofChars?_eq_date_iff]
  refine ⟨fun s order horder => ⟨Layout.length_filter_isSome_read?_le horder _, ?_⟩,
    fun x t => ⟨fun h => ?_, ?_⟩⟩
  · refine Option.ext fun t => ?_
    rw [Layout.findSome?_read?_eq_some_iff horder, parse?,
      Layout.findSome?_read?_eq_some_iff (.refl _)]
  · rw [hdate, Layout.read?_eq_some_iff_trim hspecifier] at h
    exact parse?_of_read? hspecifier h.2
  · rw [hdate, Layout.read?_eq_some_iff_trim hspecifier]

/-- A leap second in a year with a sign, without zeros in front and with blanks of another script
before its numbers: it is read with the layouts in reverse, and behind an `@`. -/
theorem Timestamp.one_time_at_most_of_spaced_leap_second :
    let leap : Timestamp :=
      { date := ⟨-9, 2, 3, by decide⟩, hour := 4, minute := 5, second := 60 }
    (Layout.dateTimes ++ Layout.dates).reverse.Perm (Layout.dateTimes ++ Layout.dates) ∧
      (Layout.dateTimes ++ Layout.dates).reverse.findSome?
        (fun layout => layout.read? (Text.trim " -9/2/	3:4:5:60".toList)) = some leap ∧
      Specifier.parse? ("@" ++ " -9/2/	3:4:5:60") = some (.date leap) ∧
      parse? " -9/2/	3:4:5:60" = some leap := by
  intro leap
  have hspecifier : Specifier.parse? ("@" ++ " -9/2/	3:4:5:60") = some (.date leap) := rfl
  have hperm : (Layout.dateTimes ++ Layout.dates).reverse.Perm (Layout.dateTimes ++ Layout.dates) :=
    List.reverse_perm _
  have htime : parse? " -9/2/	3:4:5:60" = some leap := (one_time_at_most.2 _ _).1 hspecifier
  exact ⟨hperm, (one_time_at_most.1 _ _ hperm).2.trans htime, hspecifier, htime⟩

end DepotClient
