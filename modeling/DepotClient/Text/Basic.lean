/-! # Characters

The classes of characters that texts of the server are read by, and the trimming of texts.

* **`isBlank`** — the *blanks*, at which texts are trimmed and cut: the characters with the Unicode
  property `White_Space`;
* **`isDecimalDigit`** — the digits of all scripts;
* **`sameLetters`, `simpleFold`** — two ways to disregard case: spellings are compared by the case of
  ASCII letters alone, while phrases inside free text are found up to Unicode simple case folding,
  under which two further characters fold to ASCII letters;
* **`trimStart`, `trimEnd`, `trim`** — drop the blanks at one end or at both. -/

namespace DepotClient.Text

/-! ## Blanks -/

/-- Holds of the twenty-five characters with the Unicode property `White_Space`. -/
def isBlank (c : Char) : Bool :=
  let n := c.toNat
  (0x09 ≤ n && n ≤ 0x0D) || n == 0x20 || n == 0x85 || n == 0xA0 || n == 0x1680
    || (0x2000 ≤ n && n ≤ 0x200A) || n == 0x2028 || n == 0x2029 || n == 0x202F || n == 0x205F
    || n == 0x3000

/-- A digit is no blank. -/
theorem isBlank_of_isDigit {c : Char} (h : c.isDigit = true) : isBlank c = false := by
  obtain ⟨h0, h9⟩ : 0x30 ≤ c.toNat ∧ c.toNat ≤ 0x39 := Char.isDigit_iff_toNat.mp h
  simp only [isBlank, Bool.or_eq_false_iff, Bool.and_eq_false_iff, decide_eq_false_iff_not,
    beq_eq_false_iff_ne]
  omega

/-! ## Decimal digits of all scripts

The general category `Nd` of Unicode 16. Its characters come in 76 blocks of ten, zero to nine in
order, so the table lists the zero of each block. -/

/-- The code points of the digit zero in every block of decimal digits. -/
def decimalZeros : List Nat :=
  [0x0030, 0x0660, 0x06F0, 0x07C0, 0x0966, 0x09E6, 0x0A66, 0x0AE6, 0x0B66, 0x0BE6, 0x0C66, 0x0CE6,
   0x0D66, 0x0DE6, 0x0E50, 0x0ED0, 0x0F20, 0x1040, 0x1090, 0x17E0, 0x1810, 0x1946, 0x19D0, 0x1A80,
   0x1A90, 0x1B50, 0x1BB0, 0x1C40, 0x1C50, 0xA620, 0xA8D0, 0xA900, 0xA9D0, 0xA9F0, 0xAA50, 0xABF0,
   0xFF10, 0x104A0, 0x10D30, 0x10D40, 0x11066, 0x110F0, 0x11136, 0x111D0, 0x112F0, 0x11450,
   0x114D0, 0x11650, 0x116C0, 0x116D0, 0x116DA, 0x11730, 0x118E0, 0x11950, 0x11BF0, 0x11C50,
   0x11D50, 0x11DA0, 0x11F50, 0x16130, 0x16A60, 0x16AC0, 0x16B50, 0x16D70, 0x1CCF0, 0x1D7CE,
   0x1D7D8, 0x1D7E2, 0x1D7EC, 0x1D7F6, 0x1E140, 0x1E2F0, 0x1E4F0, 0x1E5F1, 0x1E950, 0x1FBF0]

-- the blocks do not overlap
example : decimalZeros.Pairwise fun first next => first + 10 ≤ next := by decide +kernel

/-- Holds of the decimal digits of any script. -/
def isDecimalDigit (c : Char) : Bool :=
  decimalZeros.any fun first => first ≤ c.toNat && c.toNat < first + 10

/-! ## Letters in either case -/

/-- Holds if the texts differ at most in the case of ASCII letters. -/
def sameLetters (as bs : List Char) : Bool := as.map Char.toLower == bs.map Char.toLower

theorem sameLetters_iff {as bs : List Char} :
    sameLetters as bs = true ↔ as.map Char.toLower = bs.map Char.toLower := beq_iff_eq

@[simp] theorem sameLetters_refl (as : List Char) : sameLetters as as = true := by
  simp [sameLetters_iff]

/-- The simple case folding of the characters that fold to ASCII: the letters, the long s and the
kelvin sign. Any other character is left as it is. -/
def simpleFold (c : Char) : Char :=
  if c = '\u017F' then 's' else if c = '\u212A' then 'k' else c.toLower

/-- The text behind a phrase at its start, read up to simple case folding. The phrase is given in
folded form. -/
def afterFolded? : (phrase : List Char) → List Char → Option (List Char)
  | [], cs => some cs
  | _ :: _, [] => none
  | p :: phrase, c :: cs => if simpleFold c = p then afterFolded? phrase cs else none

@[simp] theorem afterFolded?_nil (cs : List Char) : afterFolded? [] cs = some cs := by
  cases cs <;> rfl

/-! ## Trimming -/

/-- The text without its leading blanks. -/
def trimStart (cs : List Char) : List Char := cs.dropWhile isBlank

/-- The text without its trailing blanks. -/
def trimEnd (cs : List Char) : List Char := (trimStart cs.reverse).reverse

/-- The text without leading and trailing blanks. -/
def trim (cs : List Char) : List Char := trimEnd (trimStart cs)

@[simp] theorem trimStart_nil : trimStart [] = [] := rfl

@[simp] theorem trimEnd_nil : trimEnd [] = [] := rfl

@[simp] theorem trim_nil : trim [] = [] := rfl

theorem trimStart_cons (c : Char) (cs : List Char) :
    trimStart (c :: cs) = if isBlank c then trimStart cs else c :: cs := by
  cases h : isBlank c <;> simp [trimStart, h]

/-- A text is the blanks in front of it and what is left without them. -/
theorem exists_blanks_append_trimStart (cs : List Char) :
    ∃ gap, (∀ c ∈ gap, isBlank c = true) ∧ cs = gap ++ trimStart cs :=
  ⟨cs.takeWhile isBlank, List.all_eq_true.mp List.all_takeWhile,
    List.takeWhile_append_dropWhile.symm⟩

/-- A text that does not begin with a blank is left as it is. -/
theorem trimStart_eq_self {cs : List Char} (h : ∀ c ∈ cs.head?, isBlank c = false) :
    trimStart cs = cs := by
  cases cs with
  | nil => rfl
  | cons c cs => rw [trimStart_cons, h c rfl]; rfl

/-- A text that does not end with a blank is left as it is. -/
theorem trimEnd_eq_self {cs : List Char} (h : ∀ c ∈ cs.getLast?, isBlank c = false) :
    trimEnd cs = cs := by
  have hrev : trimStart cs.reverse = cs.reverse :=
    trimStart_eq_self fun c hc => h c (by rwa [List.head?_reverse] at hc)
  rw [trimEnd, hrev, List.reverse_reverse]

/-- A text that neither begins nor ends with a blank is left as it is, whatever blanks stand
within. -/
theorem trim_eq_self_of_ends {cs : List Char} (hstart : ∀ c ∈ cs.head?, isBlank c = false)
    (hend : ∀ c ∈ cs.getLast?, isBlank c = false) : trim cs = cs := by
  rw [trim, trimStart_eq_self hstart, trimEnd_eq_self hend]

/-- Blanks behind a text that neither begins nor ends with one are dropped. -/
theorem trim_append_blanks {cs gap : List Char} (hne : cs ≠ [])
    (hstart : ∀ c ∈ cs.head?, isBlank c = false) (hend : ∀ c ∈ cs.getLast?, isBlank c = false)
    (hgap : ∀ c ∈ gap, isBlank c = true) : trim (cs ++ gap) = cs := by
  have hleft : trimStart (cs ++ gap) = cs ++ gap := by
    cases cs with
    | nil => exact absurd rfl hne
    | cons c cs => exact trimStart_eq_self hstart
  have hright : trimStart (cs ++ gap).reverse = trimStart cs.reverse := by
    rw [List.reverse_append, trimStart,
      List.dropWhile_append_of_pos fun c hc => hgap c (List.mem_reverse.mp hc)]
    rfl
  rw [trim, hleft, trimEnd, hright]
  exact trimEnd_eq_self hend

/-- Blanks in front of a text are dropped. -/
theorem trim_blanks_append {gap : List Char} (hgap : ∀ c ∈ gap, isBlank c = true) (cs : List Char) :
    trim (gap ++ cs) = trim cs := by
  have hleft : trimStart (gap ++ cs) = trimStart cs := List.dropWhile_append_of_pos hgap
  rw [trim, hleft, trim]

/-- **Blanks around a text** that neither begins nor ends with one are dropped. -/
theorem trim_blanks_around {before cs after : List Char} (hne : cs ≠ [])
    (hstart : ∀ c ∈ cs.head?, isBlank c = false) (hend : ∀ c ∈ cs.getLast?, isBlank c = false)
    (hbefore : ∀ c ∈ before, isBlank c = true) (hafter : ∀ c ∈ after, isBlank c = true) :
    trim (before ++ (cs ++ after)) = cs := by
  rw [trim_blanks_append hbefore, trim_append_blanks hne hstart hend hafter]

/-- In front of a sign that is no blank stands what begins the text, if there is anything. -/
theorem isBlank_head?_append_cons {cs : List Char} {sep : Char} (hsep : isBlank sep = false)
    (h : ∀ c ∈ cs.head?, isBlank c = false) (ds : List Char) :
    ∀ c ∈ (cs ++ sep :: ds).head?, isBlank c = false := by
  cases cs with
  | nil => rintro c ⟨rfl⟩; exact hsep
  | cons c cs => exact h

/-- Behind a sign that is no blank stands what ends the text, if there is anything. -/
theorem isBlank_getLast?_append_cons {ds : List Char} {sep : Char} (hsep : isBlank sep = false)
    (h : ∀ c ∈ ds.getLast?, isBlank c = false) (cs : List Char) :
    ∀ c ∈ (cs ++ sep :: ds).getLast?, isBlank c = false := by
  intro c hc
  rw [List.getLast?_append, List.getLast?_cons, Option.some_or] at hc
  obtain rfl := Option.some.inj hc
  cases hlast : ds.getLast? with
  | none => exact hsep
  | some d => exact h d hlast

/-- A text without blanks is left as it is. -/
theorem trim_eq_self {cs : List Char} (h : ∀ c ∈ cs, isBlank c = false) : trim cs = cs :=
  trim_eq_self_of_ends (fun c hc => h c (List.mem_of_mem_head? hc))
    fun c hc => h c (List.mem_of_mem_getLast? hc)

end DepotClient.Text
