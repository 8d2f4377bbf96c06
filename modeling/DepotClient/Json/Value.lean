import DepotClient.Text.Numeral

/-! # JSON values

A value as it stands in a document. A string is kept as the code units that its characters and
escapes name, and a number as its characters, since what they may be depends on what is read from
them: `Json.text?` gives the text of a string whose surrogates pair up, and `Json.integer?` the
integer of a number written without fraction and exponent. -/

namespace DepotClient

/-- A JSON value. -/
inductive Json
  /-- The value null. -/
  | null
  /-- A truth value. -/
  | bool (value : Bool)
  /-- A number, as it is written. -/
  | number (digits : List Char)
  /-- A string, as code units. -/
  | string (units : List Nat)
  /-- A list. -/
  | array (items : List Json)
  /-- An object: its fields in order, repeated keys included. -/
  | object (fields : List (List Nat × Json))

namespace Json

/-! ## Strings -/

/-- Holds of the units that begin a surrogate pair. -/
def isHighSurrogate (n : Nat) : Bool := 0xD800 ≤ n && n < 0xDC00

/-- Holds of the units that end a surrogate pair. -/
def isLowSurrogate (n : Nat) : Bool := 0xDC00 ≤ n && n < 0xE000

/-- The characters of a list of units, if every surrogate in it belongs to a pair. -/
def charsOfUnits? : List Nat → Option (List Char)
  | [] => some []
  | [n] => if isHighSurrogate n || isLowSurrogate n then none else some [Char.ofNat n]
  | n :: m :: rest =>
    if isHighSurrogate n then
      if isLowSurrogate m then
        (charsOfUnits? rest).map
          (Char.ofNat (0x10000 + (n - 0xD800) * 0x400 + (m - 0xDC00)) :: ·)
      else none
    else if isLowSurrogate n then none
    else (charsOfUnits? (m :: rest)).map (Char.ofNat n :: ·)

/-- The text of a list of units, if every surrogate in it belongs to a pair. -/
def textOfUnits? (units : List Nat) : Option String := (charsOfUnits? units).map String.ofList

/-- The units of a text, one for each character. -/
def unitsOfText (s : String) : List Nat := s.toList.map Char.toNat

/-- The text of a string. -/
def text? : Json → Option String
  | string units => textOfUnits? units
  | _ => none

/-- The string of a text. -/
def ofText (s : String) : Json := string (unitsOfText s)

/-! ## Numbers -/

/-- What is left behind the leading digits, if there is at least one. -/
def afterDigits? (cs : List Char) : Option (List Char) :=
  if (cs.takeWhile Char.isDigit).isEmpty then none else some (cs.dropWhile Char.isDigit)

/-- What is left behind the whole part of a number, which has no leading zero. -/
def afterWhole? : List Char → Option (List Char)
  | '0' :: cs => some cs
  | cs => afterDigits? cs

/-- What is left behind a fraction, if there is one. -/
def afterFraction? : List Char → Option (List Char)
  | '.' :: cs => afterDigits? cs
  | cs => some cs

/-- What is left behind an exponent, if there is one. -/
def afterExponent? : List Char → Option (List Char)
  | c :: cs =>
    if c = 'e' ∨ c = 'E' then
      match cs with
      | '+' :: ds => afterDigits? ds
      | '-' :: ds => afterDigits? ds
      | ds => afterDigits? ds
    else some (c :: cs)
  | [] => some []

/-- A text without a minus sign at its start. -/
def dropMinus : List Char → List Char
  | '-' :: cs => cs
  | cs => cs

/-- Holds of the characters of a number. -/
def isNumber (cs : List Char) : Bool :=
  (((afterWhole? (dropMinus cs)).bind afterFraction?).bind afterExponent?) = some []

/-- The integer of a number written without fraction and exponent. Minus zero is no integer. -/
def integer? : Json → Option Int
  | number ('-' :: cs) =>
    (Numeral.natural? cs).bind fun n : Nat => if n = 0 then none else some (-(n : Int))
  | number cs => (Numeral.natural? cs).map Int.ofNat
  | _ => none

/-- The number of an integer. -/
def ofInteger (n : Int) : Json := number (Numeral.ofInteger n)

end Json

end DepotClient
