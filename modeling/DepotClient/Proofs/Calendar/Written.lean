import DepotClient.Proofs.Calendar.Layout

/-! # No text is read in two layouts

Reading skips blanks, takes short numbers, and takes years with a sign, so a layout accepts many more
texts than it writes. Still it accounts for every sign in a text that is neither part of a number nor
a blank (`IsMark`): `Layout.count_of_read?` says that an accepted text holds such a sign as often as
the layout does. The layouts of dates and times differ in how many slashes, colons and letters T they
have, so no text is accepted by two of them, and it does not matter which one is tried first.

* **`Layout.count_of_read?`** — the signs of an accepted text are those of the layout;
* **`Layout.eq_of_read?`** — so one layout at most accepts a text;
* **`Layout.findSome?_read?_eq_some_iff`** — and what it reads is found in whichever order the layouts
  are tried;
* **`Timestamp.parse?_of_read?`** — so it is the time that the text shows;
* **`Timestamp.parse?_blanks_write`** — so a time is read back from its text in any layout, with blanks
  around it. -/

namespace DepotClient

/-! ## The signs that a reading accounts for -/

/-- Holds of a character that is neither part of a number nor a blank. -/
def IsMark (c : Char) : Prop :=
  c.isDigit = false ∧ Text.isBlank c = false ∧ c ∉ ['+', '-']

instance (c : Char) : Decidable (IsMark c) := by
  unfold IsMark; infer_instance

variable {c : Char}

/-- **A part accounts for its own sign and for no other.** -/
theorem LayoutItem.count_of_takes (hc : IsMark c) {item : LayoutItem} {taken : List Char}
    (h : item.Takes taken) : taken.count c = if item = .sign c then 1 else 0 := by
  obtain ⟨hdigit, hblank, hsign⟩ := hc
  have hblanks : ∀ cs : List Char, (∀ d ∈ cs, Text.isBlank d = true) → cs.count c = 0 := by
    intro cs hcs
    rw [List.count_eq_zero]
    intro hmem
    rw [hcs c hmem] at hblank
    cases hblank
  have hnumeric : ∀ number, IsNumeric number → number.count c = 0 := by
    intro number hnumber
    rw [List.count_eq_zero]
    intro hmem
    obtain hd | hs := hnumber.2 c hmem
    · rw [hd] at hdigit
      cases hdigit
    · exact hsign hs
  cases item with
  | sign d =>
    obtain rfl : taken = [d] := h
    simp [List.count_singleton]
  | space => rw [hblanks taken h, if_neg LayoutItem.noConfusion]
  | year | month | day | hour | minute | second =>
    obtain ⟨gap, number, hgap, hnumber, rfl⟩ := h
    rw [List.count_append, hblanks gap hgap, hnumeric number hnumber, if_neg LayoutItem.noConfusion]

/-- The parts of a layout account for the signs of the layout. -/
theorem Layout.count_of_readParts? (hc : IsMark c) {layout : Layout} {p q : TimeParts}
    {cs rest : List Char} (h : layout.readParts? p cs = some (q, rest)) :
    cs.count c = rest.count c + layout.count (.sign c) := by
  induction layout generalizing p cs with
  | nil =>
    obtain ⟨-, rfl⟩ := Prod.mk.inj (Option.some.inj h)
    rfl
  | cons item layout ih =>
    rw [Layout.readParts?] at h
    obtain ⟨⟨p', cs'⟩, hitem, hrest⟩ := Option.bind_eq_some_iff.mp h
    obtain ⟨taken, htakes, rfl⟩ := LayoutItem.exists_takes_of_read? hitem
    rw [List.count_append, LayoutItem.count_of_takes hc htakes, ih hrest, List.count_cons]
    simp only [beq_iff_eq]
    omega

/-- **A text that is read in a layout holds each sign as often as the layout does.** -/
theorem Layout.count_of_read? (hc : IsMark c) {layout : Layout} {cs : List Char} {t : Timestamp}
    (h : layout.read? cs = some t) : cs.count c = layout.count (.sign c) := by
  obtain ⟨p, hparts⟩ := exists_readParts?_of_read? h
  rw [Layout.count_of_readParts? hc hparts, List.count_nil, Nat.zero_add]

/-! ## One layout at most -/

/-- The signs in whose numbers the layouts of dates and times differ. -/
def marks : List Char := ['/', ':', 'T']

theorem isMark_of_mem_marks (h : c ∈ marks) : IsMark c := by
  simp only [marks, List.mem_cons, List.not_mem_nil, or_false] at h
  obtain rfl | rfl | rfl := h <;> decide

/-- **No text is read in two layouts.** Two layouts differ in the number of slashes, of colons or of
letters T. -/
theorem Layout.eq_of_read? {layout layout' : Layout} (h : layout ∈ dateTimes ++ dates)
    (h' : layout' ∈ dateTimes ++ dates) {cs : List Char} {t t' : Timestamp}
    (hread : layout.read? cs = some t) (hread' : layout'.read? cs = some t') : layout = layout' := by
  have hdiffer : ∀ layout ∈ dateTimes ++ dates, ∀ layout' ∈ dateTimes ++ dates,
      (marks.map fun c => layout.count (.sign c)) = (marks.map fun c => layout'.count (.sign c)) →
        layout = layout' := by
    decide
  apply hdiffer layout h layout' h'
  refine List.map_congr_left fun c hc => ?_
  rw [← count_of_read? (isMark_of_mem_marks hc) hread, ← count_of_read? (isMark_of_mem_marks hc) hread']

/-- **The order of the layouts does not matter.** Whichever is tried first, what is found is what any
of them reads. -/
theorem Layout.findSome?_read?_eq_some_iff {order : List Layout}
    (horder : order.Perm (dateTimes ++ dates)) {cs : List Char} {t : Timestamp} :
    order.findSome? (fun layout => layout.read? cs) = some t ↔
      ∃ layout ∈ dateTimes ++ dates, layout.read? cs = some t := by
  constructor
  · intro h
    obtain ⟨layout, hlayout, hread⟩ := List.exists_of_findSome?_eq_some h
    exact ⟨layout, horder.mem_iff.mp hlayout, hread⟩
  · rintro ⟨layout, hlayout, hread⟩
    cases hfound : order.findSome? fun layout => layout.read? cs with
    | none =>
      rw [List.findSome?_eq_none_iff.mp hfound layout (horder.mem_iff.mpr hlayout)] at hread
      cases hread
    | some t' =>
      obtain ⟨layout', hlayout', hread'⟩ := List.exists_of_findSome?_eq_some hfound
      obtain rfl := eq_of_read? hlayout (horder.mem_iff.mp hlayout') hread hread'
      exact hread'.symm.trans hread

/-- **What is read in any layout is the time that the text shows.** -/
theorem Timestamp.parse?_of_read? {layout : Layout} (h : layout ∈ Layout.dateTimes ++ Layout.dates)
    {s : String} {t : Timestamp} (hread : layout.read? (Text.trim s.toList) = some t) :
    parse? s = some t :=
  (Layout.findSome?_read?_eq_some_iff (.refl _)).mpr ⟨layout, h, hread⟩

/-! ## Written times with blanks around them -/

/-- All layouts begin with the year. -/
theorem Layout.head?_eq_year {layout : Layout} (h : layout ∈ dateTimes ++ dates) :
    layout.head? = some .year := by
  revert layout
  decide

/-- Blanks around a written time are dropped. -/
theorem Layout.trim_blanks_write {layout : Layout} (h : layout ∈ dateTimes ++ dates)
    {before after : List Char} (hbefore : ∀ c ∈ before, Text.isBlank c = true)
    (hafter : ∀ c ∈ after, Text.isBlank c = true) (t : Timestamp) :
    Text.trim (String.ofList (before ++ (layout.write t ++ after))).toList = layout.write t := by
  obtain ⟨hfirst, hlast⟩ := isSolid_ends h
  have hne : layout.write t ≠ [] := by
    obtain ⟨rest, rfl⟩ := List.head?_eq_some_iff.mp (head?_eq_year h)
    exact fun hnil => LayoutItem.write_ne_nil t .year (List.append_eq_nil_iff.mp hnil).1
  rw [String.toList_ofList]
  exact Text.trim_blanks_around hne (isBlank_head?_write hfirst) (isBlank_getLast?_write hlast)
    hbefore hafter

/-- **Server times survive their texts.** In whichever layout a time is written, and whatever blanks
stand around it, it is read back; a date alone is read as the start of the day. The first layout is
that in which the server writes. -/
theorem Timestamp.parse?_blanks_write {before after : List Char}
    (hbefore : ∀ c ∈ before, Text.isBlank c = true) (hafter : ∀ c ∈ after, Text.isBlank c = true) :
    (∀ layout ∈ Layout.dateTimes, ∀ t : Timestamp,
        parse? (String.ofList (before ++ (layout.write t ++ after))) = some t) ∧
      (∀ layout ∈ Layout.dates, ∀ d : Date,
        parse? (String.ofList (before ++ (layout.write (.midnight d) ++ after))) =
          some (.midnight d)) ∧
      ∀ t : Timestamp,
        Layout.dateTimes.head?.map (fun layout => String.ofList (layout.write t)) =
          some (toString t) := by
  refine ⟨?_, ?_, fun t => rfl⟩
  · intro layout hlayout t
    have hmem : layout ∈ Layout.dateTimes ++ Layout.dates := List.mem_append_left _ hlayout
    apply parse?_of_read? hmem
    rw [Layout.trim_blanks_write hmem hbefore hafter]
    exact Layout.read?_write hlayout t
  · intro layout hlayout d
    have hmem : layout ∈ Layout.dateTimes ++ Layout.dates := List.mem_append_right _ hlayout
    apply parse?_of_read? hmem
    rw [Layout.trim_blanks_write hmem hbefore hafter]
    simp only [Layout.dates, List.mem_cons, List.not_mem_nil, or_false] at hlayout
    obtain rfl | rfl := hlayout
    · exact Layout.read?_write_ymd (by decide) d
    · exact Layout.read?_write_ymd (by decide) d

/-- The first year, with a leap second in the middle of an hour, and the last day of the last year,
both with dashes that are not the sign of the year, and with blanks of other scripts around them. -/
theorem Timestamp.parse?_blanks_write_first_last :
    parse? "\u2003\t-262143-01-01T12:34:60\u0085" = some
        { date := ⟨-262143, 1, 1, by decide⟩, hour := 12, minute := 34, second := 60 } ∧
      parse? "\u2003\t+262142-12-31\u0085" = some (.midnight ⟨262142, 12, 31, by decide⟩) := by
  have hbefore : ∀ c ∈ ['\u2003', '\t'], Text.isBlank c = true := List.all_eq_true.mp (by decide)
  have hafter : ∀ c ∈ ['\u0085'], Text.isBlank c = true := List.all_eq_true.mp (by decide)
  obtain ⟨htimes, hdates, -⟩ := parse?_blanks_write hbefore hafter
  let first : Timestamp :=
    { date := ⟨-262143, 1, 1, by decide⟩, hour := 12, minute := 34, second := 60 }
  let last : Date := ⟨262142, 12, 31, by decide⟩
  have hfirst : String.ofList (['\u2003', '\t'] ++ (Layout.dashedT.write first ++ ['\u0085'])) =
      "\u2003\t-262143-01-01T12:34:60\u0085" := by decide
  have hlast : String.ofList (['\u2003', '\t'] ++ ((Layout.ymd '-').write (.midnight last) ++
      ['\u0085'])) = "\u2003\t+262142-12-31\u0085" := by decide
  rw [← hfirst, ← hlast]
  exact ⟨htimes .dashedT (by decide) first, hdates (.ymd '-') (by decide) last⟩

end DepotClient
