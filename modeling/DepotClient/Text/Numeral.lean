import DepotClient.Text.Basic

/-! # Decimal numerals

Whole numbers as the server writes and reads them. A numeral is an optional single sign followed
by one or more ASCII digits, and nothing else; `integer?` reads it, and `int32?` and `int64?`
read it into a bounded type, refusing what does not fit. `digits`, `ofInteger` and `padded` write
numbers, and what `ofInteger` writes is read back (`integer?_ofInteger`). -/

namespace DepotClient.Numeral

/-! ## Writing -/

/-- The decimal digits of a number, without leading zeros. -/
def digits (n : Nat) : List Char := Nat.toDigits 10 n

/-- The digits of a number, with zeros in front up to the given width. -/
def padded (width n : Nat) : List Char :=
  List.replicate (width - (digits n).length) '0' ++ digits n

/-- The numeral of an integer: a minus sign if it is negative, then its digits. -/
def ofInteger (n : Int) : List Char :=
  if n < 0 then '-' :: digits n.natAbs else digits n.natAbs

/-- The text of `ofInteger`. -/
def text (n : Int) : String := String.ofList (ofInteger n)

/-! ## Reading -/

/-- The number written by a non-empty run of ASCII digits. -/
def natural? (cs : List Char) : Option Nat :=
  if cs ≠ [] ∧ cs.all Char.isDigit then some (Nat.ofDigitChars 10 cs 0) else none

/-- The number written by a numeral. -/
def integer? : List Char → Option Int
  | '-' :: cs => (natural? cs).map fun n : Nat => -(n : Int)
  | '+' :: cs => (natural? cs).map Int.ofNat
  | cs => (natural? cs).map Int.ofNat

/-- A number as a 32-bit one, if it fits. -/
def fit32? (n : Int) : Option Int32 :=
  if Int32.minValue.toInt ≤ n ∧ n ≤ Int32.maxValue.toInt then some (Int32.ofInt n) else none

/-- A number as a 64-bit one, if it fits. -/
def fit64? (n : Int) : Option Int64 :=
  if Int64.minValue.toInt ≤ n ∧ n ≤ Int64.maxValue.toInt then some (Int64.ofInt n) else none

/-- The 32-bit number written by a numeral, if it fits. -/
def int32? (cs : List Char) : Option Int32 := (integer? cs).bind fit32?

/-- The 64-bit number written by a numeral, if it fits. -/
def int64? (cs : List Char) : Option Int64 := (integer? cs).bind fit64?

/-! ## What is written is read back -/

theorem digits_ne_nil (n : Nat) : digits n ≠ [] := by
  simp [digits]

theorem isDigit_of_mem_digits {n : Nat} {c : Char} (h : c ∈ digits n) : c.isDigit = true :=
  Nat.isDigit_of_mem_toDigits (by decide) (by decide) h

theorem natural?_eq_some_iff {cs : List Char} {n : Nat} : natural? cs = some n ↔
    (cs ≠ [] ∧ ∀ c ∈ cs, c.isDigit = true) ∧ Nat.ofDigitChars 10 cs 0 = n := by
  rw [← List.all_eq_true, natural?]
  constructor
  · intro h
    split at h
    · rename_i hcs
      exact ⟨hcs, Option.some.inj h⟩
    · cases h
  · rintro ⟨hcs, rfl⟩
    rw [if_pos hcs]

@[simp] theorem natural?_digits (n : Nat) : natural? (digits n) = some n :=
  natural?_eq_some_iff.mpr
    ⟨⟨digits_ne_nil n, fun _ hc => isDigit_of_mem_digits hc⟩, by simp [digits, Nat.ofDigitChars_toDigits]⟩

theorem length_digits_le_iff {n width : Nat} (h : 0 < width) :
    (digits n).length ≤ width ↔ n < Nat.pow 10 width :=
  Nat.length_toDigits_le_iff (by decide) h

theorem isDigit_of_mem_padded {width n : Nat} {c : Char} (h : c ∈ padded width n) :
    c.isDigit = true := by
  obtain hc | hc := List.mem_append.mp h
  · rw [List.eq_of_mem_replicate hc]; decide
  · exact isDigit_of_mem_digits hc

theorem padded_ne_nil (width n : Nat) : padded width n ≠ [] := by
  simp [padded, digits_ne_nil]

/-- A number that fits takes up the whole width. -/
theorem length_padded {width n : Nat} (h : (digits n).length ≤ width) :
    (padded width n).length = width := by
  simp only [padded, List.length_append, List.length_replicate]
  omega

/-- Zeros in front do not change the number. -/
@[simp] theorem ofDigitChars_padded (width n : Nat) :
    Nat.ofDigitChars 10 (padded width n) 0 = n := by
  simp [padded, digits, Nat.ofDigitChars_append, Nat.ofDigitChars_toDigits]

@[simp] theorem natural?_padded (width n : Nat) : natural? (padded width n) = some n :=
  natural?_eq_some_iff.mpr
    ⟨⟨padded_ne_nil width n, fun _ hc => isDigit_of_mem_padded hc⟩, ofDigitChars_padded width n⟩

/-- Different numbers have different digits. -/
@[simp] theorem digits_inj {m n : Nat} : digits m = digits n ↔ m = n := by
  refine ⟨fun h => ?_, congrArg digits⟩
  have := congrArg natural? h
  simpa only [natural?_digits, Option.some_inj] using this

/-- A text that begins with a digit is read as digits alone. -/
theorem integer?_cons_of_isDigit {c : Char} {cs : List Char} (h : c.isDigit = true) :
    integer? (c :: cs) = (natural? (c :: cs)).map Int.ofNat := by
  unfold integer?
  split <;> simp_all

/-- Digits alone are a numeral. -/
theorem integer?_of_natural? {cs : List Char} {n : Nat} (h : natural? cs = some n) :
    integer? cs = some (n : Int) := by
  obtain ⟨⟨hne, hdigits⟩, -⟩ := natural?_eq_some_iff.mp h
  cases cs with
  | nil => exact absurd rfl hne
  | cons c cs =>
    rw [integer?_cons_of_isDigit (hdigits c List.mem_cons_self), h]
    rfl

@[simp] theorem integer?_ofInteger (n : Int) : integer? (ofInteger n) = some n := by
  unfold ofInteger
  split
  · simp only [integer?, natural?_digits, Option.map_some, Option.some_inj]
    omega
  · rw [integer?_of_natural? (natural?_digits _), Option.some_inj]
    omega

/-- The numeral of an integer holds digits and at most a minus sign. -/
theorem not_mem_ofInteger {c : Char} {n : Int} (hdigit : c.isDigit = false) (hc : c ≠ '-') :
    c ∉ ofInteger n := by
  have hdigits : c ∉ digits n.natAbs := fun h => by
    rw [isDigit_of_mem_digits h] at hdigit; cases hdigit
  unfold ofInteger
  split <;> simp [hdigits, hc]

/-- No blank stands in the numeral of an integer. -/
theorem isBlank_of_mem_ofInteger {c : Char} {n : Int} (h : c ∈ ofInteger n) :
    Text.isBlank c = false := by
  cases hdigit : c.isDigit with
  | true => exact Text.isBlank_of_isDigit hdigit
  | false =>
    by_cases hminus : c = '-'
    · rw [hminus]
      decide
    · exact absurd h (not_mem_ofInteger hdigit hminus)

theorem ofInteger_ne_nil (n : Int) : ofInteger n ≠ [] := by
  unfold ofInteger
  split
  · exact List.cons_ne_nil _ _
  · exact digits_ne_nil _

/-- A number with so many digits lies below that power of ten. -/
theorem ofDigitChars_lt {cs : List Char} (h : ∀ c ∈ cs, c.isDigit = true) :
    Nat.ofDigitChars 10 cs 0 < Nat.pow 10 cs.length := by
  induction cs with
  | nil => decide
  | cons c cs ih =>
    obtain ⟨hc, hcs⟩ := List.forall_mem_cons.mp h
    obtain ⟨-, h9⟩ : 0x30 ≤ c.toNat ∧ c.toNat ≤ 0x39 := Char.isDigit_iff_toNat.mp hc
    have hrest := ih hcs
    have hfirst : 10 * 0 + (c.toNat - '0'.toNat) ≤ 9 := by
      change 10 * 0 + (c.toNat - 48) ≤ 9
      omega
    calc Nat.ofDigitChars 10 (c :: cs) 0
        = Nat.pow 10 cs.length * (10 * 0 + (c.toNat - '0'.toNat)) + Nat.ofDigitChars 10 cs 0 := by
          rw [Nat.ofDigitChars_cons]
          exact Nat.ofDigitChars_eq_ofDigitChars_zero
      _ < Nat.pow 10 cs.length * 9 + Nat.pow 10 cs.length :=
          Nat.add_lt_add_of_le_of_lt (Nat.mul_le_mul_left _ hfirst) hrest
      _ = Nat.pow 10 cs.length * 10 := by omega
      _ = Nat.pow 10 (c :: cs).length := rfl

theorem natural?_lt {cs : List Char} {n : Nat} (h : natural? cs = some n) : n < Nat.pow 10 cs.length := by
  obtain ⟨⟨-, hdigits⟩, rfl⟩ := natural?_eq_some_iff.mp h
  exact ofDigitChars_lt hdigits

@[simp] theorem fit32?_toInt (n : Int32) : fit32? n.toInt = some n := by
  have h := n.minValue_le_toInt
  simp only [fit32?, h, n.toInt_le, and_self, if_true, Int32.ofInt_toInt]

/-- A number that fits is that of a 32-bit one. -/
theorem fit32?_eq_some_iff {n : Int} {m : Int32} : fit32? n = some m ↔ m.toInt = n := by
  constructor
  · intro h
    unfold fit32? at h
    split at h
    · rename_i hn
      rw [← Option.some.inj h]
      exact Int32.toInt_ofInt_of_le hn.1 (Int.lt_add_one_of_le hn.2)
    · cases h
  · rintro rfl
    exact fit32?_toInt m

@[simp] theorem fit64?_toInt (n : Int64) : fit64? n.toInt = some n := by
  have h := n.minValue_le_toInt
  simp only [fit64?, h, n.toInt_le, and_self, if_true, Int64.ofInt_toInt]

@[simp] theorem int32?_ofInteger (n : Int32) : int32? (ofInteger n.toInt) = some n := by
  simp [int32?]

@[simp] theorem int64?_ofInteger (n : Int64) : int64? (ofInteger n.toInt) = some n := by
  simp [int64?]

end DepotClient.Numeral
