import DepotClient.Calendar.Layout

/-! # Times survive their texts

A time written in a layout is read back from it. Part by part: `LayoutItem.read?_write` says that
reading a part undoes writing it, provided the text behind the part cannot be taken for more of
it (`LayoutItem.Ends`). A layout is `Legible` if this is so at each of its parts.

* **`Layout.readParts?_write`** — reading the parts of a legible layout undoes writing them;
* **`Layout.read?_write`** — a layout that shows the date and the time gives every time back;
* **`Timestamp.parse_text`** — so a time is read back from the text in which the server writes it;
* **`LayoutItem.exists_takes_of_read?`** — whatever is read for a part is something that can be taken
  for it;
* **`Layout.mem_of_read?`** — so whatever text is read, the signs of the layout stand in it;
* **`Timestamp.parse_dateText`** — a date alone is read back as well, since no layout of a time can
  take it for its own. -/

namespace DepotClient

/-! ## Numbers in front of a text -/

/-- A run of digits is read as a number if it has the full width or no digit follows. -/
theorem leadingNumber?_append {width : Nat} {ds rest : List Char} (hne : ds ≠ [])
    (hds : ∀ c ∈ ds, c.isDigit = true) (hle : ds.length ≤ width)
    (hend : ds.length = width ∨ ∀ c ∈ rest.head?, c.isDigit = false) :
    leadingNumber? width (ds ++ rest) = some (Nat.ofDigitChars 10 ds 0, rest) := by
  have hrun : ((ds ++ rest).take width).takeWhile Char.isDigit = ds := by
    rw [List.take_append, List.take_of_length_le hle, List.takeWhile_append_of_pos hds]
    obtain hfull | hstop := hend
    · simp [hfull]
    · cases rest with
      | nil => simp
      | cons c rest =>
        cases hw : width - ds.length with
        | zero => simp
        | succ w => simp [hstop c rfl]
  unfold leadingNumber?
  rw [hrun]
  cases ds with
  | nil => exact absurd rfl hne
  | cons d ds => simp

/-- A number with zeros in front is read up to its width, whatever follows. -/
theorem leadingNumber?_padded {width n : Nat} (hn : (Numeral.digits n).length ≤ width)
    (rest : List Char) :
    leadingNumber? width (Numeral.padded width n ++ rest) = some (n, rest) := by
  have hlen : (Numeral.padded width n).length = width := Numeral.length_padded hn
  rw [leadingNumber?_append (Numeral.padded_ne_nil width n)
    (fun c hc => Numeral.isDigit_of_mem_padded hc) (Nat.le_of_eq hlen) (.inl hlen),
    Numeral.ofDigitChars_padded]

/-- A text that begins with a digit begins with no blank and no sign. -/
theorem head?_padded_append (width n : Nat) (rest : List Char) :
    ∃ c cs, Numeral.padded width n ++ rest = c :: cs ∧ c.isDigit = true := by
  cases h : Numeral.padded width n with
  | nil => exact absurd h (Numeral.padded_ne_nil width n)
  | cons c cs =>
    exact ⟨c, cs ++ rest, rfl, Numeral.isDigit_of_mem_padded (h ▸ List.mem_cons_self)⟩

/-- Without a sign a year has at most four digits. -/
theorem leadingYear?_of_isDigit {c : Char} {cs : List Char} (h : c.isDigit = true) :
    leadingYear? (c :: cs) =
      (leadingNumber? 4 (c :: cs)).map (Prod.map Int.ofNat id) := by
  unfold leadingYear?
  split <;> simp_all

/-- **A written year is read back**, if no digit follows. -/
theorem leadingYear?_yearText (year : Int) {rest : List Char}
    (hend : ∀ c ∈ rest.head?, c.isDigit = false) :
    leadingYear? (yearText year ++ rest) = some (year, rest) := by
  unfold yearText
  split
  · rename_i hyear
    obtain ⟨c, cs, hcs, hc⟩ := head?_padded_append 4 year.toNat rest
    have hlt : year.toNat < 10000 := by omega
    have hlen : (Numeral.digits year.toNat).length ≤ 4 :=
      (Numeral.length_digits_le_iff (by decide)).mpr hlt
    rw [hcs, leadingYear?_of_isDigit hc, ← hcs, leadingNumber?_padded hlen]
    simp [Int.toNat_of_nonneg hyear.1]
  · -- behind its sign the year takes all the digits that follow
    have hread : leadingNumber? (Numeral.padded 4 year.natAbs ++ rest).length
        (Numeral.padded 4 year.natAbs ++ rest) = some (year.natAbs, rest) := by
      rw [leadingNumber?_append (Numeral.padded_ne_nil 4 year.natAbs)
        (fun c hc => Numeral.isDigit_of_mem_padded hc) (by simp) (.inr hend),
        Numeral.ofDigitChars_padded]
    split
    · have habs : -(year.natAbs : Int) = year := by omega
      simp only [List.cons_append, leadingYear?, hread, Option.map_some, Prod.map, id_eq, habs]
    · have habs : (year.natAbs : Int) = year := by omega
      simp only [List.cons_append, leadingYear?, hread, Option.map_some, Prod.map, id_eq,
        Int.ofNat_eq_natCast, habs]

/-- A year begins with a digit or a sign. -/
theorem isBlank_head?_yearText (year : Int) (rest : List Char) :
    ∀ c ∈ (yearText year ++ rest).head?, Text.isBlank c = false := by
  unfold yearText
  intro c hc
  split at hc
  · obtain ⟨d, cs, hcs, hd⟩ := head?_padded_append 4 year.toNat rest
    rw [hcs] at hc
    obtain rfl : d = c := Option.some.inj hc
    exact Text.isBlank_of_isDigit hd
  · split at hc <;> (obtain rfl := Option.some.inj hc; decide)

/-! ## Parts of a date that exist have two digits -/

theorem Date.month_lt (d : Date) : d.month < 100 := by
  obtain ⟨-, -, hpos, hle⟩ := d.valid
  have := (daysInMonth_pos_le (Nat.lt_of_lt_of_le hpos hle)).1
  omega

theorem Date.day_lt (d : Date) : d.day < 100 := by
  obtain ⟨-, -, hpos, hle⟩ := d.valid
  have := (daysInMonth_pos_le (Nat.lt_of_lt_of_le hpos hle)).2
  omega

/-! ## One part of a time -/

namespace LayoutItem

/-- The part ends where the given text begins: none of it can be taken for more of the part. -/
def Ends (rest : List Char) : LayoutItem → Prop
  | year => ∀ c ∈ rest.head?, c.isDigit = false
  | space => ∀ c ∈ rest.head?, Text.isBlank c = false
  | _ => True

/-- The parts of a time, with one of them taken from a time. -/
def put (t : Timestamp) (p : TimeParts) : LayoutItem → TimeParts
  | year => { p with year := t.date.year }
  | month => { p with month := t.date.month }
  | day => { p with day := t.date.day }
  | hour => { p with hour := t.hour }
  | minute => { p with minute := t.minute }
  | second => { p with second := t.second }
  | sign _ => p
  | space => p

/-- A number of two digits is read back, whatever follows. -/
theorem leadingNumber?_trimStart_padded {n : Nat} (hn : n < 100) (rest : List Char) :
    leadingNumber? 2 (Text.trimStart (Numeral.padded 2 n ++ rest)) = some (n, rest) := by
  obtain ⟨c, cs, hcs, hc⟩ := head?_padded_append 2 n rest
  have hblank : ∀ d ∈ (Numeral.padded 2 n ++ rest).head?, Text.isBlank d = false := by
    rw [hcs]
    rintro d ⟨rfl⟩
    exact Text.isBlank_of_isDigit hc
  have hlen : (Numeral.digits n).length ≤ 2 := (Numeral.length_digits_le_iff (by decide)).mpr hn
  rw [Text.trimStart_eq_self hblank, leadingNumber?_padded hlen]

/-- **Reading a part undoes writing it**, if the part ends where the text behind it begins. -/
theorem read?_write (t : Timestamp) (p : TimeParts) (item : LayoutItem) {rest : List Char}
    (h : item.Ends rest) : item.read? p (item.write t ++ rest) = some (item.put t p, rest) := by
  cases item with
  | year =>
    simp only [read?, write, Text.trimStart_eq_self (isBlank_head?_yearText _ rest),
      leadingYear?_yearText t.date.year h, Option.map_some, Prod.map, id_eq, put]
  | month =>
    simp only [read?, write, leadingNumber?_trimStart_padded t.date.month_lt, Option.map_some,
      Prod.map, id_eq, put]
  | day =>
    simp only [read?, write, leadingNumber?_trimStart_padded t.date.day_lt, Option.map_some,
      Prod.map, id_eq, put]
  | hour =>
    have ht : t.hour < 100 := Nat.lt_trans t.hour_lt (by decide)
    simp only [read?, write, leadingNumber?_trimStart_padded ht, Option.map_some, Prod.map, id_eq,
      put]
  | minute =>
    have ht : t.minute < 100 := Nat.lt_trans t.minute_lt (by decide)
    simp only [read?, write, leadingNumber?_trimStart_padded ht, Option.map_some, Prod.map, id_eq,
      put]
  | second =>
    have ht : t.second < 100 := Nat.lt_of_le_of_lt t.second_le (by decide)
    simp only [read?, write, leadingNumber?_trimStart_padded ht, Option.map_some, Prod.map, id_eq,
      put]
  | sign c => simp [read?, write, put]
  | space =>
    have hblank : Text.isBlank ' ' = true := by decide
    simp only [read?, write, List.singleton_append, Text.trimStart_cons, hblank, if_true, put,
      Text.trimStart_eq_self h]

end LayoutItem

/-! ## All parts of a time -/

namespace Layout

/-- Each part of the layout ends where the text of the parts behind it begins. -/
def Legible (t : Timestamp) : Layout → Prop
  | [] => True
  | item :: layout => item.Ends (Layout.write layout t) ∧ Legible t layout

/-- The parts of a time, with those that the layout shows taken from a time. -/
def put (t : Timestamp) (layout : Layout) (p : TimeParts) : TimeParts :=
  layout.foldl (LayoutItem.put t) p

/-- **Reading the parts of a legible layout undoes writing them.** -/
theorem readParts?_write {t : Timestamp} {layout : Layout} (h : layout.Legible t) (p : TimeParts) :
    layout.readParts? p (layout.write t) = some (layout.put t p, []) := by
  induction layout generalizing p with
  | nil => rfl
  | cons item layout ih =>
    have hitem : item.read? p (Layout.write (item :: layout) t) =
        some (item.put t p, Layout.write layout t) := item.read?_write t p h.1
    rw [Layout.readParts?, hitem]
    exact ih h.2 (item.put t p)

/-- The year of a date ends at the sign behind it. -/
theorem legible_ymd_append {c : Char} (hc : c.isDigit = false) {layout : Layout} {t : Timestamp}
    (h : layout.Legible t) : Layout.Legible t (ymd c ++ layout) := by
  refine ⟨?_, trivial, trivial, trivial, trivial, h⟩
  intro d hd
  obtain rfl : c = d := Option.some.inj hd
  exact hc

theorem legible_hms (t : Timestamp) : hms.Legible t := by
  simp [hms, Legible, LayoutItem.Ends]

/-- A space ends at the hour behind it. -/
theorem legible_space_hms (t : Timestamp) : Layout.Legible t (.space :: hms) := by
  refine ⟨?_, legible_hms t⟩
  obtain ⟨c, cs, hcs, hc⟩ := head?_padded_append 2 t.hour
    (Layout.write [.sign ':', .minute, .sign ':', .second] t)
  rw [show Layout.write hms t = c :: cs from hcs]
  rintro d ⟨rfl⟩
  exact Text.isBlank_of_isDigit hc

/-- The layouts of a date with a time are legible. -/
theorem legible_of_mem_dateTimes {layout : Layout} (h : layout ∈ dateTimes) (t : Timestamp) :
    layout.Legible t := by
  simp only [dateTimes, List.mem_cons, List.not_mem_nil, or_false] at h
  -- the layouts differ in the sign within the date, and in what stands between it and the hour
  obtain rfl | rfl | rfl | rfl := h
  · exact legible_ymd_append (by decide) (legible_space_hms t)
  · exact legible_ymd_append (by decide) ⟨trivial, legible_hms t⟩
  · exact legible_ymd_append (by decide) (legible_space_hms t)
  · exact legible_ymd_append (by decide) ⟨trivial, legible_hms t⟩

/-- They show the whole of a time. -/
theorem timestamp?_put_of_mem_dateTimes {layout : Layout} (h : layout ∈ dateTimes)
    (t : Timestamp) : (layout.put t {}).timestamp? = some t := by
  simp only [dateTimes, List.mem_cons, List.not_mem_nil, or_false] at h
  obtain rfl | rfl | rfl | rfl := h <;> exact Timestamp.of?_self t

/-- **A time is read back from its text** in each of the layouts that show a date and a time. -/
theorem read?_write {layout : Layout} (h : layout ∈ dateTimes) (t : Timestamp) :
    layout.read? (layout.write t) = some t := by
  rw [Layout.read?, readParts?_write (legible_of_mem_dateTimes h t)]
  exact timestamp?_put_of_mem_dateTimes h t

end Layout

/-! ## What a written text holds -/

/-- The sign of a year is no blank. -/
theorem isBlank_of_yearSign {c : Char} (h : c ∈ ['+', '-']) : Text.isBlank c = false := by
  rw [List.mem_cons, List.mem_singleton] at h
  rcases h with rfl | rfl <;> decide

/-- A written part holds digits, a sign of its own or that of a year, or it is a space. -/
theorem LayoutItem.of_mem_write {t : Timestamp} {item : LayoutItem} {c : Char}
    (h : c ∈ item.write t) :
    c.isDigit = true ∨ c ∈ ['+', '-'] ∨ item = .sign c ∨ (item = .space ∧ c = ' ') := by
  cases item with
  | year =>
    simp only [LayoutItem.write, yearText] at h
    split at h
    · exact .inl (Numeral.isDigit_of_mem_padded h)
    · obtain rfl | h := List.mem_cons.mp h
      · right; left; split <;> decide
      · exact .inl (Numeral.isDigit_of_mem_padded h)
  | month | day | hour | minute | second => exact .inl (Numeral.isDigit_of_mem_padded h)
  | sign d => exact .inr (.inr (.inl (congrArg LayoutItem.sign (List.mem_singleton.mp h).symm)))
  | space => exact .inr (.inr (.inr ⟨rfl, List.mem_singleton.mp h⟩))

/-- A character that no layout writes of its own accord is one of the layout's signs. -/
theorem Layout.sign_mem_of_mem_write {t : Timestamp} {layout : Layout} {c : Char}
    (h : c ∈ layout.write t) (hdigit : c.isDigit = false) (hc : c ∉ ['+', '-', ' ']) :
    LayoutItem.sign c ∈ layout := by
  obtain ⟨item, hitem, hmem⟩ := List.mem_flatMap.mp h
  obtain hd | hs | rfl | ⟨-, rfl⟩ := LayoutItem.of_mem_write hmem
  · rw [hdigit] at hd; cases hd
  · exact absurd (List.mem_append_left [' '] hs) hc
  · exact hitem
  · exact absurd (by decide) hc

/-- Holds of the parts that are written without a blank. -/
def LayoutItem.isSolid : LayoutItem → Bool
  | space => false
  | sign c => !Text.isBlank c
  | _ => true

/-- Such a part holds no blank. -/
theorem LayoutItem.isBlank_of_mem_write {t : Timestamp} {item : LayoutItem}
    (hsolid : item.isSolid = true) {c : Char} (h : c ∈ item.write t) : Text.isBlank c = false := by
  obtain hd | hs | rfl | ⟨rfl, -⟩ := LayoutItem.of_mem_write h
  · exact Text.isBlank_of_isDigit hd
  · exact isBlank_of_yearSign hs
  · simpa [LayoutItem.isSolid] using hsolid
  · cases hsolid

/-- Only a space, or a blank for a sign, puts a blank into a written text. -/
theorem Layout.isBlank_of_mem_write {t : Timestamp} {layout : Layout}
    (hsolid : layout.all LayoutItem.isSolid = true) {c : Char} (h : c ∈ layout.write t) :
    Text.isBlank c = false := by
  obtain ⟨item, hitem, hmem⟩ := List.mem_flatMap.mp h
  exact LayoutItem.isBlank_of_mem_write (List.all_eq_true.mp hsolid item hitem) hmem

/-! ## Trimmed texts -/

/-- Every part is written as something. -/
theorem LayoutItem.write_ne_nil (t : Timestamp) (item : LayoutItem) : item.write t ≠ [] := by
  cases item with
  | year =>
    simp only [LayoutItem.write, yearText]
    split
    · exact Numeral.padded_ne_nil _ _
    · exact List.cons_ne_nil _ _
  | month | day | hour | minute | second => exact Numeral.padded_ne_nil _ _
  | sign c => exact List.cons_ne_nil _ _
  | space => exact List.cons_ne_nil _ _

/-- A text begins with no blank if its first part holds none. -/
theorem Layout.isBlank_head?_write {t : Timestamp} {layout : Layout}
    (h : ∀ item ∈ layout.head?, item.isSolid = true) :
    ∀ c ∈ (layout.write t).head?, Text.isBlank c = false := by
  cases layout with
  | nil => intro c hc; cases hc
  | cons item layout =>
    intro c hc
    have htext : Layout.write (item :: layout) t = item.write t ++ Layout.write layout t :=
      List.flatMap_cons
    rw [htext, List.head?_append, List.head?_eq_some_head (item.write_ne_nil t),
      Option.some_or] at hc
    obtain rfl := Option.some.inj hc
    exact LayoutItem.isBlank_of_mem_write (h item rfl) (List.head_mem _)

/-- A text ends with no blank if its last part holds none. -/
theorem Layout.isBlank_getLast?_write {t : Timestamp} {layout : Layout}
    (h : ∀ item ∈ layout.getLast?, item.isSolid = true) :
    ∀ c ∈ (layout.write t).getLast?, Text.isBlank c = false := by
  obtain rfl | ⟨front, item, rfl⟩ := List.eq_nil_or_concat layout
  · intro c hc; cases hc
  · intro c hc
    have htext : Layout.write (front ++ [item]) t = Layout.write front t ++ item.write t := by
      simp [Layout.write]
    rw [List.concat_eq_append, htext, List.getLast?_append,
      List.getLast?_eq_some_getLast (item.write_ne_nil t), Option.some_or] at hc
    obtain rfl := Option.some.inj hc
    exact LayoutItem.isBlank_of_mem_write (h item (by simp)) (List.getLast_mem _)

/-- All layouts begin and end with a number. -/
theorem Layout.isSolid_ends {layout : Layout} (h : layout ∈ dateTimes ++ dates) :
    (∀ item ∈ layout.head?, item.isSolid = true) ∧ ∀ item ∈ layout.getLast?, item.isSolid = true := by
  have hends : ∀ layout ∈ dateTimes ++ dates,
      layout.head?.all LayoutItem.isSolid = true ∧ layout.getLast?.all LayoutItem.isSolid = true := by
    decide
  simpa only [Option.all_eq_true, Option.mem_def] using hends layout h

/-- A written time begins with its year and ends with its second, so no blank stands at either
end. -/
theorem Layout.trim_write {layout : Layout} (h : layout ∈ dateTimes) (t : Timestamp) :
    Text.trim (layout.write t) = layout.write t := by
  obtain ⟨hfirst, hlast⟩ := isSolid_ends (List.mem_append_left dates h)
  exact Text.trim_eq_self_of_ends (isBlank_head?_write hfirst) (isBlank_getLast?_write hlast)

/-- **A time is read back from the text in which the server writes it.** -/
@[simp] theorem Timestamp.parse_text (t : Timestamp) : parse t.text = t := by
  have hserver : Layout.server ∈ Layout.dateTimes := by simp [Layout.dateTimes]
  have hread : Layout.server.read? (Text.trim t.text.toList) = some t := by
    rw [text, String.toList_ofList, Layout.trim_write hserver, Layout.read?_write hserver]
  simp only [parse, parse?, Layout.dateTimes, List.cons_append, List.findSome?_cons, hread,
    Option.getD_some]

/-! ## What a text must hold to be read -/

/-- Holds of a text that can be taken for a number: it is not empty, and all of it are digits or the
signs of a year. -/
def IsNumeric (cs : List Char) : Prop :=
  cs ≠ [] ∧ ∀ c ∈ cs, c.isDigit = true ∨ c ∈ ['+', '-']

/-- No part of a number is a blank. -/
theorem IsNumeric.isBlank_of_mem {cs : List Char} (h : IsNumeric cs) {c : Char} (hc : c ∈ cs) :
    Text.isBlank c = false := by
  obtain hdigit | hsign := h.2 c hc
  · exact Text.isBlank_of_isDigit hdigit
  · exact isBlank_of_yearSign hsign

/-- A number is read off the front. -/
theorem exists_numeric_of_leadingNumber? {width n : Nat} {cs rest : List Char}
    (h : leadingNumber? width cs = some (n, rest)) :
    ∃ number, IsNumeric number ∧ cs = number ++ rest := by
  unfold leadingNumber? at h
  generalize hds : (cs.take width).takeWhile Char.isDigit = ds at h
  have hprefix : ds <+: cs := hds ▸ (List.takeWhile_prefix _).trans (List.take_prefix _ _)
  have hdigits : ∀ c ∈ ds, c.isDigit = true := by
    rw [← hds]
    exact List.all_eq_true.mp List.all_takeWhile
  cases ds with
  | nil => cases h
  | cons d ds =>
    obtain ⟨-, rfl⟩ := Prod.mk.inj (Option.some.inj h)
    exact ⟨d :: ds, ⟨List.cons_ne_nil _ _, fun c hc => .inl (hdigits c hc)⟩,
      (List.prefix_iff_eq_append.mp hprefix).symm⟩

/-- A year is read off the front, with its sign. -/
theorem exists_numeric_of_leadingYear? {year : Int} {cs rest : List Char}
    (h : leadingYear? cs = some (year, rest)) :
    ∃ number, IsNumeric number ∧ cs = number ++ rest := by
  have hsigned : ∀ sign ∈ ['+', '-'], ∀ number, IsNumeric number → IsNumeric (sign :: number) :=
    fun sign hsign number hnumber =>
      ⟨List.cons_ne_nil _ _, List.forall_mem_cons.mpr ⟨.inr hsign, hnumber.2⟩⟩
  unfold leadingYear? at h
  split at h <;> obtain ⟨⟨n, rest'⟩, hn, heq⟩ := Option.map_eq_some_iff.mp h <;>
    obtain ⟨-, rfl⟩ := Prod.mk.inj heq <;>
    obtain ⟨number, hnumber, rfl⟩ := exists_numeric_of_leadingNumber? hn
  · exact ⟨'-' :: number, hsigned '-' (by decide) number hnumber, rfl⟩
  · exact ⟨'+' :: number, hsigned '+' (by decide) number hnumber, rfl⟩
  · exact ⟨number, hnumber, rfl⟩

/-- Holds of what can be taken for a part: its own sign, or blanks for a space, or a number with
blanks in front of it. -/
def LayoutItem.Takes (taken : List Char) : LayoutItem → Prop
  | sign c => taken = [c]
  | space => ∀ c ∈ taken, Text.isBlank c = true
  | _ => ∃ gap number, (∀ c ∈ gap, Text.isBlank c = true) ∧ IsNumeric number ∧ taken = gap ++ number

/-- **A part is read off the front**, and what is read is something that can be taken for it. -/
theorem LayoutItem.exists_takes_of_read? {item : LayoutItem} {p q : TimeParts} {cs rest : List Char}
    (h : item.read? p cs = some (q, rest)) : ∃ taken, item.Takes taken ∧ cs = taken ++ rest := by
  obtain ⟨gap, hgap, hcs⟩ := Text.exists_blanks_append_trimStart cs
  -- the blanks in front of a number belong to what is taken
  have hnumber : (∃ number, IsNumeric number ∧ Text.trimStart cs = number ++ rest) →
      ∃ taken, LayoutItem.year.Takes taken ∧ cs = taken ++ rest := by
    rintro ⟨number, hnumber, htrim⟩
    exact ⟨gap ++ number, ⟨gap, number, hgap, hnumber, rfl⟩, by rw [hcs, htrim, List.append_assoc]⟩
  cases item with
  | year =>
    obtain ⟨⟨n, rest'⟩, hn, heq⟩ := Option.map_eq_some_iff.mp h
    obtain ⟨-, rfl⟩ := Prod.mk.inj heq
    exact hnumber (exists_numeric_of_leadingYear? hn)
  | month | day | hour | minute | second =>
    obtain ⟨⟨n, rest'⟩, hn, heq⟩ := Option.map_eq_some_iff.mp h
    obtain ⟨-, rfl⟩ := Prod.mk.inj heq
    exact hnumber (exists_numeric_of_leadingNumber? hn)
  | sign c =>
    cases cs with
    | nil => cases h
    | cons d cs =>
      simp only [LayoutItem.read?] at h
      split at h
      · rename_i heq
        obtain ⟨-, rfl⟩ := Prod.mk.inj (Option.some.inj h)
        exact ⟨[c], rfl, by rw [heq, List.singleton_append]⟩
      · cases h
  | space =>
    obtain ⟨-, rfl⟩ := Prod.mk.inj (Option.some.inj h)
    exact ⟨gap, hgap, hcs⟩

/-- The signs of a layout stand in every text from which its parts are read. -/
theorem Layout.mem_of_readParts? {c : Char} {layout : Layout} (hc : LayoutItem.sign c ∈ layout)
    {p q : TimeParts} {cs rest : List Char} (h : layout.readParts? p cs = some (q, rest)) :
    c ∈ cs := by
  induction layout generalizing p cs with
  | nil => cases hc
  | cons item layout ih =>
    rw [Layout.readParts?] at h
    obtain ⟨⟨p', cs'⟩, hitem, hrest⟩ := Option.bind_eq_some_iff.mp h
    obtain ⟨taken, htakes, rfl⟩ := LayoutItem.exists_takes_of_read? hitem
    -- the sign is read now, or from what the first part leaves
    obtain rfl | hc := List.mem_cons.mp hc
    · obtain rfl : taken = [c] := htakes
      exact List.mem_cons_self
    · exact List.mem_append_right taken (ih hc hrest)

/-- A text that is read is used up by the parts of the layout. -/
theorem Layout.exists_readParts?_of_read? {layout : Layout} {cs : List Char} {t : Timestamp}
    (h : layout.read? cs = some t) : ∃ p, layout.readParts? {} cs = some (p, []) := by
  obtain ⟨⟨p, rest⟩, hparts, hlast⟩ := Option.bind_eq_some_iff.mp h
  cases rest with
  | nil => exact ⟨p, hparts⟩
  | cons c rest => cases hlast

/-- **The signs of a layout stand in every text that is read in it.** -/
theorem Layout.mem_of_read? {c : Char} {layout : Layout} (hc : LayoutItem.sign c ∈ layout)
    {cs : List Char} {t : Timestamp} (h : layout.read? cs = some t) : c ∈ cs := by
  obtain ⟨p, hparts⟩ := exists_readParts?_of_read? h
  exact Layout.mem_of_readParts? hc hparts

/-- No layout of a date with a time reads a text without a colon. -/
theorem Layout.findSome?_dateTimes_eq_none {cs : List Char} (h : ':' ∉ cs) :
    dateTimes.findSome? (fun layout => layout.read? cs) = none := by
  rw [List.findSome?_eq_none_iff]
  intro layout hlayout
  have hsign : ∀ layout ∈ dateTimes, LayoutItem.sign ':' ∈ layout := by decide
  cases hread : layout.read? cs with
  | none => rfl
  | some t => exact absurd (mem_of_read? (hsign layout hlayout) hread) h

/-! ## Dates alone -/

/-- The text of a date as the server writes it. -/
def Date.text (d : Date) : String := String.ofList ((Layout.ymd '/').write (.midnight d))

/-- A date is read back from its text, as the start of the day. -/
theorem Layout.read?_write_ymd {c : Char} (hc : c.isDigit = false) (d : Date) :
    (Layout.ymd c).read? ((Layout.ymd c).write (.midnight d)) = some (.midnight d) := by
  have hlegible : Layout.Legible (.midnight d) (Layout.ymd c ++ []) := legible_ymd_append hc trivial
  rw [List.append_nil] at hlegible
  rw [Layout.read?, readParts?_write hlegible]
  exact Timestamp.of?_self (.midnight d)

/-- **A date alone is read back from its text.** The layouts that are tried before show a time as
well, and no colon stands in the text. -/
@[simp] theorem Timestamp.parse_dateText (d : Date) : parse d.text = .midnight d := by
  have htrim : Text.trim d.text.toList = d.text.toList := by
    rw [Date.text, String.toList_ofList]
    exact Text.trim_eq_self fun c hc => Layout.isBlank_of_mem_write (by decide) hc
  have hcolon : ':' ∉ d.text.toList := by
    rw [Date.text, String.toList_ofList]
    intro hmem
    exact absurd (Layout.sign_mem_of_mem_write hmem (by decide) (by decide)) (by decide)
  have hdate : (Layout.ymd '/').read? d.text.toList = some (.midnight d) := by
    rw [Date.text, String.toList_ofList]
    exact Layout.read?_write_ymd (by decide) d
  rw [parse, parse?, htrim, List.findSome?_append, Layout.findSome?_dateTimes_eq_none hcolon,
    Option.none_or, Layout.dates, List.findSome?_cons, hdate, Option.getD_some]

/-! ## The words of a time -/

theorem Timestamp.toList_text (t : Timestamp) :
    t.text.toList = (Layout.ymd '/').write t ++ ' ' :: Layout.hms.write t := by
  rw [text, String.toList_ofList]
  exact List.flatMap_append

/-- **A written time is two words**, its date and its time of day. -/
theorem Timestamp.words_text (t : Timestamp) :
    Text.words t.text.toList = [(Layout.ymd '/').write t, Layout.hms.write t] := by
  have hspace : Text.isBlank ' ' = true := by decide
  have hdate : (Layout.ymd '/').write t ≠ [] := fun hnil => by
    simp [Layout.write, Layout.ymd, LayoutItem.write] at hnil
  have htime : Layout.hms.write t ≠ [] := fun hnil => by
    simp [Layout.write, Layout.hms, LayoutItem.write] at hnil
  rw [toList_text, Text.words_append_cons hspace,
    Text.words_eq_singleton hdate fun c hc => Layout.isBlank_of_mem_write (by decide) hc,
    Text.words_eq_singleton htime fun c hc => Layout.isBlank_of_mem_write (by decide) hc]
  rfl

end DepotClient
