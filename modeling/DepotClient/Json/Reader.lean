import DepotClient.Json.Value

/-! # Reading JSON documents

`Json.parse?` reads a document that holds one value. The tokens are taken one after the other;
the lists and objects that are still open wait on a stack, so that nesting has no limit. -/

namespace DepotClient

/-! ## Tokens

A document is a row of tokens with white space between them: brackets, commas, colons, strings,
and *words*, which are the runs of all other characters. `JsonToken.lex?` finds the tokens of
a document, one character at a time. -/

/-- A token of a document. -/
inductive JsonToken
  /-- The start of a list. -/
  | openArray
  /-- The end of a list. -/
  | closeArray
  /-- The start of an object. -/
  | openObject
  /-- The end of an object. -/
  | closeObject
  /-- A comma. -/
  | comma
  /-- A colon. -/
  | colon
  /-- A string. -/
  | string (units : List Nat)
  /-- A number or the name of a constant. -/
  | word (letters : List Char)
deriving DecidableEq

namespace JsonToken

/-- Where the search for tokens stands. -/
inductive LexState
  /-- Between tokens. -/
  | between
  /-- In a word, with its letters so far, last one first. -/
  | inWord (letters : List Char)
  /-- In a string, with its units so far, last one first. -/
  | inString (units : List Nat)
  /-- Behind a backslash in a string. -/
  | escape (units : List Nat)
  /-- In the code of an escape, with the digits that are still to come, and its value so far. -/
  | code (units : List Nat) (digits value : Nat)

/-- The white space between tokens. -/
def isSpace (c : Char) : Bool := c == ' ' || c == '\n' || c == '\t' || c == '\r'

/-- The token that a single sign is. -/
def sign? (c : Char) : Option JsonToken :=
  if c = '[' then some openArray
  else if c = ']' then some closeArray
  else if c = '\x7b' then some openObject
  else if c = '\x7d' then some closeObject
  else if c = ',' then some comma
  else if c = ':' then some colon
  else none

/-- The unit that an escape of one letter names. -/
def escaped? (c : Char) : Option Nat :=
  if c = '"' ∨ c = '\\' ∨ c = '/' then some c.toNat
  else if c = 'b' then some 0x08
  else if c = 'f' then some 0x0C
  else if c = 'n' then some 0x0A
  else if c = 'r' then some 0x0D
  else if c = 't' then some 0x09
  else none

/-- The value of a hexadecimal digit. -/
def hexValue? (c : Char) : Option Nat :=
  if c.isDigit then some (c.toNat - '0'.toNat)
  else if 'a' ≤ c ∧ c ≤ 'f' then some (c.toNat - 'a'.toNat + 10)
  else if 'A' ≤ c ∧ c ≤ 'F' then some (c.toNat - 'A'.toNat + 10)
  else none

/-- The tokens completed by a character outside strings, and the state behind it. -/
def stepOutside (done : List JsonToken) (c : Char) : LexState × List JsonToken :=
  if isSpace c then (.between, done)
  else if c = '"' then (.inString [], done)
  else match sign? c with
    | some token => (.between, done ++ [token])
    | none => (.inWord [c], done)

/-- The state behind a character, and the tokens that it completes; nothing if the character may
not stand there. -/
def step? : LexState → Char → Option (LexState × List JsonToken)
  | .between, c => some (stepOutside [] c)
  | .inWord letters, c =>
    if isSpace c || c == '"' || (sign? c).isSome then
      some (stepOutside [word letters.reverse] c)
    else some (.inWord (c :: letters), [])
  | .inString units, c =>
    if c = '"' then some (.between, [string units.reverse])
    else if c = '\\' then some (.escape units, [])
    else if c.toNat < 0x20 then none
    else some (.inString (c.toNat :: units), [])
  | .escape units, c =>
    if c = 'u' then some (.code units 4 0, [])
    else (escaped? c).map fun n => (.inString (n :: units), [])
  | .code units digits value, c =>
    (hexValue? c).map fun n =>
      if digits ≤ 1 then (.inString ((16 * value + n) :: units), [])
      else (.code units (digits - 1) (16 * value + n), [])

/-- The tokens of the rest of a document. A string must be closed before it ends. -/
def lexFrom? : LexState → List Char → Option (List JsonToken)
  | .between, [] => some []
  | .inWord letters, [] => some [word letters.reverse]
  | _, [] => none
  | state, c :: cs =>
    (step? state c).bind fun next => (lexFrom? next.1 cs).map (next.2 ++ ·)

/-- The tokens of a document. -/
def lex? (document : String) : Option (List JsonToken) := lexFrom? .between document.toList

end JsonToken

/-! ## Documents -/

namespace Json

/-- A list or an object that is still open, with what it holds so far, last one first. -/
inductive Frame
  /-- A list. -/
  | array (items : List Json)
  /-- An object that waits for the value under a key. -/
  | object (fields : List (List Nat × Json)) (key : List Nat)

/-- What may come next. -/
inductive Expecting
  /-- A value. -/
  | value
  /-- A value, or the end of the list that was just opened. -/
  | firstItem
  /-- A key. -/
  | key (fields : List (List Nat × Json))
  /-- A key, or the end of the object that was just opened. -/
  | firstKey
  /-- The colon behind a key. -/
  | colon (fields : List (List Nat × Json)) (key : List Nat)
  /-- What follows a complete value: a comma, the end of what it stands in, or nothing. -/
  | after (value : Json)

/-- How far a document has been read. -/
structure ReadState where
  /-- The open lists and objects around, innermost first. -/
  stack : List Frame
  /-- What may come next. -/
  expecting : Expecting

/-- At the start of a document. -/
def ReadState.start : ReadState := ⟨[], .value⟩

/-- The value of a word, if it is a constant or a number. -/
def ofWord? (letters : List Char) : Option Json :=
  if letters = "null".toList then some null
  else if letters = "true".toList then some (bool true)
  else if letters = "false".toList then some (bool false)
  else if isNumber letters then some (number letters)
  else none

/-- The state behind a token that begins a value. -/
def beginValue? (stack : List Frame) : JsonToken → Option ReadState
  | .openArray => some ⟨.array [] :: stack, .firstItem⟩
  | .openObject => some ⟨stack, .firstKey⟩
  | .string units => some ⟨stack, .after (string units)⟩
  | .word letters => (ofWord? letters).map fun v => ⟨stack, .after v⟩
  | _ => none

/-- The state behind a token that follows a complete value. -/
def afterValue? (v : Json) : List Frame → JsonToken → Option ReadState
  | .array items :: stack, .comma => some ⟨.array (v :: items) :: stack, .value⟩
  | .array items :: stack, .closeArray => some ⟨stack, .after (array (v :: items).reverse)⟩
  | .object fields key :: stack, .comma => some ⟨stack, .key ((key, v) :: fields)⟩
  | .object fields key :: stack, .closeObject =>
    some ⟨stack, .after (object ((key, v) :: fields).reverse)⟩
  | _, _ => none

/-- The state behind one more token; nothing if the token may not stand there. -/
def ReadState.step? (s : ReadState) (token : JsonToken) : Option ReadState :=
  match s.expecting, token with
  | .value, _ => beginValue? s.stack token
  | .firstItem, .closeArray => some ⟨s.stack.tail, .after (array [])⟩
  | .firstItem, _ => beginValue? s.stack token
  | .key fields, .string key => some ⟨s.stack, .colon fields key⟩
  | .firstKey, .string key => some ⟨s.stack, .colon [] key⟩
  | .firstKey, .closeObject => some ⟨s.stack, .after (object [])⟩
  | .colon fields key, .colon => some ⟨.object fields key :: s.stack, .value⟩
  | .after v, _ => afterValue? v s.stack token
  | _, _ => none

/-- The value of a document that has been read to its end. -/
def ReadState.value? (s : ReadState) : Option Json :=
  match s.stack, s.expecting with
  | [], .after v => some v
  | _, _ => none

/-- The value in a document. -/
def parse? (document : String) : Option Json :=
  (JsonToken.lex? document).bind fun tokens =>
    (tokens.foldlM ReadState.step? .start).bind ReadState.value?

end Json

end DepotClient
