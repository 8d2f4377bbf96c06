import DepotClient.Proofs.Calendar.Layout
import DepotClient.Specifier.Basic

/-! # Specifiers survive their texts

The rules by which a specifier is read look for their signs anywhere in a text, and the first rule
wins. So a name is read back from the text of its specifier only if no other rule catches it:
`Specifier.Readable` lists the specifiers of which this holds.

* **`Specifier.ofChars?_chars`** — a readable specifier is read back from its text;
* **`Specifier.readable_or_of_ofChars?`** — what is read is readable, save a keyword behind an
  `#` that is not the first character;
* **`Specifier.parse?_text_eq_some_iff`** — so exactly the readable ones survive their texts;
* **`Specifier.parse?_text_iff_of_parse?`** — and of what is read, all but those keywords. -/

namespace DepotClient.Specifier

/-! ## The text behind a sign -/

theorem behind?_eq_none_iff {sign : Char} {cs : List Char} :
    behind? sign cs = none ↔ sign ∉ cs := by
  induction cs with
  | nil => simp [behind?]
  | cons c cs ih =>
    rw [behind?]
    split
    · rename_i hc
      simp [hc]
    · rename_i hc
      simp [ih, Ne.symm hc]

/-- What is behind a sign is behind its first occurrence. -/
theorem behind?_eq_some_iff {sign : Char} {cs rest : List Char} :
    behind? sign cs = some rest ↔ ∃ front, sign ∉ front ∧ cs = front ++ sign :: rest := by
  induction cs with
  | nil => simp [behind?]
  | cons c cs ih =>
    rw [behind?]
    split
    · rename_i hc
      subst hc
      constructor
      · rintro ⟨rfl⟩
        exact ⟨[], by simp, rfl⟩
      · rintro ⟨front, hfront, hcs⟩
        cases front with
        | nil => exact congrArg some (List.cons.inj hcs).2
        | cons d front =>
          obtain ⟨rfl, -⟩ := List.cons.inj hcs
          exact absurd List.mem_cons_self hfront
    · rename_i hc
      rw [ih]
      constructor
      · rintro ⟨front, hfront, rfl⟩
        exact ⟨c :: front, by simp [hfront, Ne.symm hc], rfl⟩
      · rintro ⟨front, hfront, hcs⟩
        cases front with
        | nil => exact absurd (List.cons.inj hcs).1 hc
        | cons d front =>
          obtain ⟨rfl, rfl⟩ := List.cons.inj hcs
          exact ⟨front, fun h => hfront (List.mem_cons_of_mem _ h), rfl⟩

/-- There is nothing behind an `@=` if the two characters never meet. -/
theorem behindShelfSign?_eq_none_iff {cs : List Char} :
    behindShelfSign? cs = none ↔ ¬ ['@', '='] <:+: cs := by
  fun_induction behindShelfSign? cs with
  | case1 cs => simp [List.infix_cons_iff]
  | case2 c cs h ih =>
    rw [ih, List.infix_cons_iff, not_or]
    refine ⟨fun hcs => ⟨?_, hcs⟩, And.right⟩
    rintro ⟨tail, htail⟩
    obtain ⟨rfl, rfl⟩ := List.cons.inj htail
    exact h tail rfl rfl
  | case3 => simp

/-- Behind an `@` an `@=` begins at once or later. -/
theorem shelfSign_infix_cons_iff {rest : List Char} :
    ['@', '='] <:+: '@' :: rest ↔ rest.head? = some '=' ∨ ['@', '='] <:+: rest := by
  rw [List.infix_cons_iff, List.cons_prefix_cons]
  cases rest with
  | nil => simp
  | cons c rest => simp [List.cons_prefix_cons, eq_comm]

/-! ## Readable specifiers -/

/-- The names that stand for something else than an action. -/
def keywords : List String := ["head", "have", "none"]

/-- The names of actions that nothing else is read from: texts that are no keyword and no number. -/
def IsActionName (name : String) : Prop :=
  name ≠ "" ∧ name ∉ keywords ∧ Numeral.int32? name.toList = none

/-- The names of labels that nothing else is read from: texts without an `#` and, with the `@` in
front of them, without an `@=`, that are no number and no time. -/
def IsLabelName (name : String) : Prop :=
  name ≠ "" ∧ '#' ∉ name.toList ∧ name.toList.head? ≠ some '=' ∧ ¬ ['@', '='] <:+: name.toList ∧
    Numeral.int32? name.toList = none ∧ Layout.specifier.read? name.toList = none

/-- **The specifiers that survive their texts.** -/
def Readable : Specifier → Prop
  | label name => IsLabelName name
  | action name => IsActionName name
  | range _ _ => False
  | _ => True

/-! ## The rules one by one -/

/-- A numeral is a number, another text a name unless it is empty. -/
theorem numberOrName?_eq_some_iff {number : Int32 → Specifier} {name : String → Specifier}
    {cs : List Char} {v : Specifier} :
    numberOrName? number name cs = some v ↔
      (∃ n, Numeral.int32? cs = some n ∧ v = number n) ∨
        (Numeral.int32? cs = none ∧ cs ≠ [] ∧ v = name (String.ofList cs)) := by
  unfold numberOrName?
  cases Numeral.int32? cs with
  | some n => simp [eq_comm]
  | none => by_cases hcs : cs = [] <;> simp [hcs, eq_comm]

/-- No keyword is a number. -/
theorem int32?_of_mem_keywords {k : String} (h : k ∈ keywords) :
    Numeral.int32? k.toList = none := by
  revert k
  decide

/-- A text with an `#` that is no keyword is read by what is behind the first `#`. -/
theorem ofChars?_of_behind_hash {cs rest : List Char} (h : ∀ k ∈ keywords, cs ≠ '#' :: k.toList)
    (hrest : behind? '#' cs = some rest) : ofChars? cs = numberOrName? revision action rest := by
  have hhead : cs ≠ "#head".toList := h "head" (by decide)
  have hhave : cs ≠ "#have".toList := h "have" (by decide)
  have hnone : cs ≠ "#none".toList := h "none" (by decide)
  rw [ofChars?, if_neg hhead, if_neg hhave, if_neg hnone, hrest]

/-- A text without an `#` is read by what is behind its first `@`. -/
theorem ofChars?_of_no_hash {cs : List Char} (h : '#' ∉ cs) :
    ofChars? cs = (behind? '@' cs).bind (ofAt? cs) := by
  have hne : ∀ k : List Char, cs ≠ '#' :: k := by
    rintro k rfl
    exact h List.mem_cons_self
  have hhead : cs ≠ "#head".toList := hne "head".toList
  have hhave : cs ≠ "#have".toList := hne "have".toList
  have hnone : cs ≠ "#none".toList := hne "none".toList
  rw [ofChars?, if_neg hhead, if_neg hhave, if_neg hnone, behind?_eq_none_iff.mpr h]

/-- Behind an `#` that begins a text is a keyword, a number or an action. -/
theorem ofChars?_hash {rest : List Char} (h : ∀ k ∈ keywords, rest ≠ k.toList) :
    ofChars? ('#' :: rest) = numberOrName? revision action rest :=
  ofChars?_of_behind_hash (fun k hk he => h k hk (List.cons.inj he).2) (if_pos rfl)

/-- A text that begins with `@` and has no `#` is read by what is behind the `@`. -/
theorem ofChars?_at {rest : List Char} (h : '#' ∉ rest) :
    ofChars? ('@' :: rest) = ofAt? ('@' :: rest) rest := by
  rw [ofChars?_of_no_hash (by simp [h]), behind?, if_pos rfl, Option.bind_some]

theorem ofAt?_of_time {cs rest : List Char} {t : Timestamp}
    (h : Layout.specifier.read? rest = some t) : ofAt? cs rest = some (date t) := by
  rw [ofAt?, h]

theorem ofAt?_of_shelf {cs rest number : List Char} (h : Layout.specifier.read? rest = none)
    (hshelf : behindShelfSign? cs = some number) :
    ofAt? cs rest = (Numeral.int32? number).map shelved := by
  rw [ofAt?, h, hshelf]

theorem ofAt?_of_name {cs rest : List Char} (h : Layout.specifier.read? rest = none)
    (hshelf : behindShelfSign? cs = none) :
    ofAt? cs rest = numberOrName? changelist label rest := by
  rw [ofAt?, h, hshelf]

/-- A text without a slash shows no time. -/
theorem read?_specifier_of_not_mem {cs : List Char} (h : '/' ∉ cs) :
    Layout.specifier.read? cs = none := by
  cases ht : Layout.specifier.read? cs with
  | none => rfl
  | some t => exact absurd (Layout.mem_of_read? (by decide) ht) h

/-! ## What is written is read back -/

/-- A text of one number is read as that number. -/
theorem ne_keyword_of_int32? {cs : List Char} {n : Int32} (h : Numeral.int32? cs = some n) :
    ∀ k ∈ keywords, cs ≠ k.toList := by
  rintro k hk rfl
  rw [int32?_of_mem_keywords hk] at h
  cases h

theorem numberOrName?_of_int32? {number : Int32 → Specifier} {name : String → Specifier}
    {cs : List Char} {n : Int32} (h : Numeral.int32? cs = some n) :
    numberOrName? number name cs = some (number n) :=
  numberOrName?_eq_some_iff.mpr (.inl ⟨n, h, rfl⟩)

theorem numberOrName?_name {number : Int32 → Specifier} {name : String → Specifier} {s : String}
    (hne : s ≠ "") (h : Numeral.int32? s.toList = none) :
    numberOrName? number name s.toList = some (name s) :=
  numberOrName?_eq_some_iff.mpr (.inr ⟨h, by simpa using hne, by simp⟩)

theorem ofChars?_revision (n : Int32) :
    ofChars? ('#' :: Numeral.ofInteger n.toInt) = some (revision n) := by
  have hn : Numeral.int32? (Numeral.ofInteger n.toInt) = some n := Numeral.int32?_ofInteger n
  rw [ofChars?_hash (ne_keyword_of_int32? hn), numberOrName?_of_int32? hn]

theorem ofChars?_action {name : String} (h : IsActionName name) :
    ofChars? ('#' :: name.toList) = some (action name) := by
  obtain ⟨hne, hkeyword, hnumber⟩ := h
  rw [ofChars?_hash, numberOrName?_name hne hnumber]
  intro k hk he
  exact hkeyword (String.toList_inj.mp he ▸ hk)

theorem ofChars?_date (t : Timestamp) :
    ofChars? ('@' :: Layout.specifier.write t) = some (date t) := by
  have hhash : '#' ∉ Layout.specifier.write t := fun hmem =>
    absurd (Layout.sign_mem_of_mem_write hmem (by decide) (by decide)) (by decide)
  rw [ofChars?_at hhash, ofAt?_of_time (Layout.read?_write (by decide) t)]

/-- No sign stands in a numeral, so no rule but the last catches it. -/
theorem ofChars?_changelist (n : Int32) :
    ofChars? ('@' :: Numeral.ofInteger n.toInt) = some (changelist n) := by
  have hslash : '/' ∉ Numeral.ofInteger n.toInt :=
    Numeral.not_mem_ofInteger (by decide) (by decide)
  have hhash : '#' ∉ Numeral.ofInteger n.toInt :=
    Numeral.not_mem_ofInteger (by decide) (by decide)
  -- without an `=` there is no `@=`
  have hequals : '=' ∉ '@' :: Numeral.ofInteger n.toInt := by
    simp [Numeral.not_mem_ofInteger]
  have hshelf : behindShelfSign? ('@' :: Numeral.ofInteger n.toInt) = none :=
    behindShelfSign?_eq_none_iff.mpr fun hmeet => hequals (hmeet.subset (by simp))
  rw [ofChars?_at hhash, ofAt?_of_name (read?_specifier_of_not_mem hslash) hshelf]
  exact numberOrName?_of_int32? (Numeral.int32?_ofInteger n)

theorem ofChars?_shelved (n : Int32) :
    ofChars? ('@' :: '=' :: Numeral.ofInteger n.toInt) = some (shelved n) := by
  have hslash : '/' ∉ '=' :: Numeral.ofInteger n.toInt := by simp [Numeral.not_mem_ofInteger]
  have hhash : '#' ∉ '=' :: Numeral.ofInteger n.toInt := by simp [Numeral.not_mem_ofInteger]
  rw [ofChars?_at hhash, ofAt?_of_shelf (read?_specifier_of_not_mem hslash) rfl,
    Numeral.int32?_ofInteger, Option.map_some]

theorem ofChars?_label {name : String} (h : IsLabelName name) :
    ofChars? ('@' :: name.toList) = some (label name) := by
  obtain ⟨hne, hhash, hhead, hmeet, hnumber, htime⟩ := h
  have hshelf : behindShelfSign? ('@' :: name.toList) = none := by
    rw [behindShelfSign?_eq_none_iff, shelfSign_infix_cons_iff]
    exact not_or.mpr ⟨hhead, hmeet⟩
  rw [ofChars?_at hhash, ofAt?_of_name htime hshelf]
  exact numberOrName?_name hne hnumber

/-- **A readable specifier is read back from its text.** -/
theorem ofChars?_chars {v : Specifier} (h : v.Readable) : ofChars? v.chars = some v := by
  cases v with
  | head | synced | noRevision => rfl
  | revision n => exact ofChars?_revision n
  | date t => exact ofChars?_date t
  | changelist n => exact ofChars?_changelist n
  | shelved n => exact ofChars?_shelved n
  | label name => exact ofChars?_label h
  | action name => exact ofChars?_action h
  | range l u => exact h.elim

/-! ## What is read is readable -/

/-- The number or name behind a sign: a name is neither empty nor a number. -/
theorem readable_of_ofAt? {front rest : List Char} (hhash : '#' ∉ rest) {v : Specifier}
    (h : ofAt? (front ++ '@' :: rest) rest = some v) : v.Readable := by
  cases htime : Layout.specifier.read? rest with
  | some t =>
    rw [ofAt?_of_time htime] at h
    obtain rfl := Option.some.inj h
    trivial
  | none =>
    cases hshelf : behindShelfSign? (front ++ '@' :: rest) with
    | some number =>
      rw [ofAt?_of_shelf htime hshelf] at h
      obtain ⟨n, -, rfl⟩ := Option.map_eq_some_iff.mp h
      trivial
    | none =>
      rw [ofAt?_of_name htime hshelf] at h
      obtain ⟨n, -, rfl⟩ | ⟨hnumber, hne, rfl⟩ := numberOrName?_eq_some_iff.mp h
      · trivial
      · -- an `@=` anywhere behind the first `@` would have been found
        have hmeet : ¬ ['@', '='] <:+: '@' :: rest := fun hin =>
          behindShelfSign?_eq_none_iff.mp hshelf (hin.trans (List.suffix_append _ _).isInfix)
        rw [shelfSign_infix_cons_iff, not_or] at hmeet
        exact ⟨by simpa using hne, by simpa using hhash, by simpa using hmeet.1,
          by simpa using hmeet.2, by simpa using hnumber, by simpa using htime⟩

/-- **What is read is readable**, or else is a keyword taken for an action, since an `#` that is not
the first character stands in front of it. -/
theorem readable_or_of_ofChars? {cs : List Char} {v : Specifier} (h : ofChars? cs = some v) :
    v.Readable ∨ ∃ front k, front ≠ [] ∧ '#' ∉ front ∧ k ∈ keywords ∧
      cs = front ++ '#' :: k.toList ∧ v = action k := by
  by_cases hkeyword : ∃ k ∈ keywords, cs = '#' :: k.toList
  · left
    obtain ⟨k, hk, rfl⟩ := hkeyword
    simp only [keywords, List.mem_cons, List.not_mem_nil, or_false] at hk
    obtain rfl | rfl | rfl := hk <;> (obtain rfl := Option.some.inj h; trivial)
  · have hne : ∀ k ∈ keywords, cs ≠ '#' :: k.toList := fun k hk he => hkeyword ⟨k, hk, he⟩
    cases hhash : behind? '#' cs with
    | some rest =>
      rw [ofChars?_of_behind_hash hne hhash] at h
      obtain ⟨front, hfront, rfl⟩ := behind?_eq_some_iff.mp hhash
      obtain ⟨n, -, rfl⟩ | ⟨hnumber, hrest, rfl⟩ := numberOrName?_eq_some_iff.mp h
      · exact .inl trivial
      · -- a keyword can stand here only if the text is not the `#` and the keyword alone
        by_cases hk : String.ofList rest ∈ keywords
        · right
          refine ⟨front, _, ?_, hfront, hk, by simp, rfl⟩
          rintro rfl
          exact hne _ hk (by simp)
        · left
          exact ⟨by simpa using hrest, hk, by simpa using hnumber⟩
    | none =>
      have hno : '#' ∉ cs := behind?_eq_none_iff.mp hhash
      rw [ofChars?_of_no_hash hno] at h
      obtain ⟨rest, hrest, hat⟩ := Option.bind_eq_some_iff.mp h
      obtain ⟨front, -, rfl⟩ := behind?_eq_some_iff.mp hrest
      exact .inl (readable_of_ofAt? (fun hmem => hno (by simp [hmem])) hat)

/-- What is read back from its own text is readable: that text has no `#` but at its front. -/
theorem readable_of_ofChars?_chars {v : Specifier} (h : ofChars? v.chars = some v) :
    v.Readable := by
  obtain hv | ⟨front, k, hne, hfront, -, hcs, rfl⟩ := readable_or_of_ofChars? h
  · exact hv
  · -- the text of an action begins with the `#` that `front` does not have
    cases front with
    | nil => exact absurd rfl hne
    | cons c front =>
      obtain ⟨rfl, -⟩ := List.cons.inj hcs
      exact absurd List.mem_cons_self hfront

/-- A keyword behind an `#` that is not the first character is taken for an action. -/
theorem ofChars?_keyword_behind {front : List Char} {k : String} (hne : front ≠ [])
    (hfront : '#' ∉ front) (hk : k ∈ keywords) :
    ofChars? (front ++ '#' :: k.toList) = some (action k) := by
  have hbehind : behind? '#' (front ++ '#' :: k.toList) = some k.toList :=
    behind?_eq_some_iff.mpr ⟨front, hfront, rfl⟩
  rw [ofChars?_of_behind_hash _ hbehind]
  · exact numberOrName?_name (by rintro rfl; revert hk; decide) (int32?_of_mem_keywords hk)
  · intro k' _ he
    cases front with
    | nil => exact hne rfl
    | cons c front => exact hfront ((List.cons.inj he).1 ▸ List.mem_cons_self)

/-! ## Which specifiers survive their texts -/

/-- **Exactly the readable specifiers survive their texts**: all but ranges, actions whose name is
empty, a keyword or a number, and labels whose name is empty, has an `#`, makes an `@=` or is a
number or a time. -/
theorem parse?_text_eq_some_iff (v : Specifier) : parse? v.text = some v ↔ v.Readable := by
  rw [parse?, toList_text]
  exact ⟨readable_of_ofChars?_chars, ofChars?_chars⟩

/-- **What is read survives its text, unless a keyword is taken for an action.** This happens where
the first `#` of a text stands before a keyword but not at the beginning, so that in a text with a
sign at its front that sign is an `@`. -/
theorem parse?_text_iff_of_parse? {s : String} {v : Specifier} (h : parse? s = some v) :
    parse? v.text = some v ↔
      ¬ ∃ front k, front ≠ [] ∧ '#' ∉ front ∧ k ∈ keywords ∧
        s.toList = front ++ '#' :: k.toList := by
  rw [parse?] at h
  rw [parse?, toList_text]
  constructor
  · rintro hback ⟨front, k, hne, hfront, hk, hs⟩
    -- then an action was read whose name is a keyword, and that is not readable
    rw [hs, ofChars?_keyword_behind hne hfront hk] at h
    obtain rfl := Option.some.inj h
    exact (readable_of_ofChars?_chars hback).2.1 hk
  · intro hs
    obtain hv | ⟨front, k, hne, hfront, hk, hcs, -⟩ := readable_or_of_ofChars? h
    · exact ofChars?_chars hv
    · exact absurd ⟨front, k, hne, hfront, hk, hcs⟩ hs

/-- A number behind the second `@` of a text survives; a keyword behind an `@` does not. -/
theorem parse?_text_of_two_signs :
    (parse? "@rel@=+07" = some (shelved 7) ∧ parse? (shelved 7).text = some (shelved 7)) ∧
    (parse? "@rel#head" = some (action "head") ∧
      parse? (action "head").text ≠ some (action "head")) := by
  have hnumber : parse? "@rel@=+07" = some (shelved 7) := rfl
  have hkeyword : parse? "@rel#head" = some (action "head") := rfl
  refine ⟨⟨hnumber, (parse?_text_iff_of_parse? hnumber).mpr ?_⟩, hkeyword, fun hback => ?_⟩
  · rintro ⟨front, k, -, -, -, hs⟩
    have hmem : '#' ∈ "@rel@=+07".toList := hs ▸ by simp
    exact absurd hmem (by decide)
  · exact (parse?_text_iff_of_parse? hkeyword).mp hback
      ⟨"@rel".toList, "head", by decide, by decide, by decide, by decide⟩

/-- What is read behind the signs `@#` does not survive: the keyword comes back. -/
theorem parse?_text_of_keyword_behind_at :
    parse? "@#head" = some (action "head") ∧ parse? (action "head").text = some head := ⟨rfl, rfl⟩

end DepotClient.Specifier
