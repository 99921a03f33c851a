import RowFilter.Decimal.Numeral

/-!
# RowFilter — the lexemes of JSON text

JSON text is cut into brackets, commas, colons, texts and *bare words*: the maximal runs of all other
characters. A bare word is then a constant or a numeral, or the text is refused. A text that holds
half of a surrogate pair is well formed, but has no characters; it is kept as a lexeme without a value.
-/

namespace RowFilter.Json

open Decimal (isDigit digitValue digitsValue spanDigits)

/-- A number as it is written. -/
structure Numeral where
  neg : Bool
  whole : List Char
  /-- The digits after the point, if there is one. -/
  fraction : Option (List Char)
  /-- The sign (`true` for minus) and the digits of the exponent, if there is one. -/
  exponent : Option (Bool × List Char)
deriving Repr, DecidableEq

/-- The smallest pieces of JSON text. -/
inductive Lexeme
  | openArray
  | closeArray
  | openObject
  | closeObject
  | comma
  | colon
  | null
  | bool (b : Bool)
  | number (n : Numeral)
  /-- A text, or nothing for one with half of a surrogate pair. -/
  | string (s : Option String)
deriving Repr, DecidableEq

/-! ## Numerals -/

/-- Reads an exponent after its letter. -/
def readExponentPart (s : List Char) : Option (Bool × List Char) :=
  let (neg, ds) := Decimal.splitSign s
  if ds.isEmpty || !ds.all isDigit then none else some (neg, ds)

/-- Reads what follows the fraction. -/
def readTail (neg : Bool) (whole : List Char) (fraction : Option (List Char)) :
    List Char → Option Numeral
  | [] => some ⟨neg, whole, fraction, none⟩
  | c :: rest =>
    if c = 'e' || c = 'E' then
      (readExponentPart rest).map fun e => ⟨neg, whole, fraction, some e⟩
    else none

/-- Reads a numeral after its sign: no zero in front of other digits, and digits after a point. -/
def readMagnitude (neg : Bool) (s : List Char) : Option Numeral :=
  let (whole, rest) := spanDigits s
  if whole.isEmpty || (whole.head? == some '0' && 1 < whole.length) then none
  else match rest with
    | '.' :: rest =>
      let (fraction, rest) := spanDigits rest
      if fraction.isEmpty then none else readTail neg whole (some fraction) rest
    | rest => readTail neg whole none rest

/-- Reads a numeral. -/
def readNumeral : List Char → Option Numeral
  | '-' :: rest => readMagnitude true rest
  | s => readMagnitude false s

/-- The lexeme of a bare word. -/
def Lexeme.ofBare (word : List Char) : Option Lexeme :=
  if word = "null".toList then some .null
  else if word = "true".toList then some (.bool true)
  else if word = "false".toList then some (.bool false)
  else (readNumeral word).map .number

/-! ## Texts -/

/-- The value of a hexadecimal digit. -/
def hexValue? (c : Char) : Option Nat :=
  if isDigit c then some (digitValue c)
  else if 'a'.toNat ≤ c.toNat && c.toNat ≤ 'f'.toNat then some (c.toNat - 'a'.toNat + 10)
  else if 'A'.toNat ≤ c.toNat && c.toNat ≤ 'F'.toNat then some (c.toNat - 'A'.toNat + 10)
  else none

/-- The value of four hexadecimal digits. -/
def hexUnit? (a b c d : Char) : Option Nat := do
  let a ← hexValue? a
  let b ← hexValue? b
  let c ← hexValue? c
  let d ← hexValue? d
  return ((a * 16 + b) * 16 + c) * 16 + d

/-- The character that a one-letter escape stands for. -/
def escaped? (c : Char) : Option Char :=
  if c = '"' then some '"'
  else if c = '\\' then some '\\'
  else if c = '/' then some '/'
  else if c = 'b' then some (Char.ofNat 8)
  else if c = 'f' then some (Char.ofNat 12)
  else if c = 'n' then some '\n'
  else if c = 'r' then some '\r'
  else if c = 't' then some '\t'
  else none

/-- The code points between the quotes, where an escape may give half of a surrogate pair. Control
characters and unknown escapes are refused. -/
def codePoints : List Char → Option (List Nat)
  | [] => some []
  | '\\' :: 'u' :: a :: b :: c :: d :: rest => do
    let n ← hexUnit? a b c d
    let ns ← codePoints rest
    return n :: ns
  | '\\' :: c :: rest => do
    let c ← escaped? c
    let ns ← codePoints rest
    return c.toNat :: ns
  | c :: rest =>
    if c.toNat < 0x20 || c = '\\' then none else (codePoints rest).map (c.toNat :: ·)

/-- The first half of a surrogate pair. -/
def isHighHalf (n : Nat) : Bool := 0xd800 ≤ n && n < 0xdc00

/-- The second half of a surrogate pair. -/
def isLowHalf (n : Nat) : Bool := 0xdc00 ≤ n && n < 0xe000

/-- Joins the halves of surrogate pairs; a half that stands alone has no character. -/
def joinHalves : List Nat → Option (List Char)
  | [] => some []
  | high :: low :: rest =>
    if isHighHalf high then
      if isLowHalf low then
        (joinHalves rest).map (Char.ofNat (0x10000 + (high - 0xd800) * 0x400 + (low - 0xdc00)) :: ·)
      else none
    else if isLowHalf high then none
    else (joinHalves (low :: rest)).map (Char.ofNat high :: ·)
  | [n] => if isHighHalf n || isLowHalf n then none else some [Char.ofNat n]

/-- The lexeme of a text, from what stands between its quotes. -/
def Lexeme.ofText (body : List Char) : Option Lexeme :=
  (codePoints body).map fun ns => .string ((joinHalves ns).map String.ofList)

/-! ## Cutting -/

/-- What is being read: nothing, a bare word or a text (both reversed); in a text also whether the
next character is escaped. -/
inductive Mode
  | between
  | bare (word : List Char)
  | inText (body : List Char) (escape : Bool)

/-- The four blank characters of JSON. -/
def isSpace (c : Char) : Bool := c = ' ' || c = '\n' || c = '\t' || c = '\r'

/-- The lexeme of one punctuation mark. -/
def mark? (c : Char) : Option Lexeme :=
  if c = '[' then some .openArray
  else if c = ']' then some .closeArray
  else if c.toNat = 0x7b then some .openObject
  else if c.toNat = 0x7d then some .closeObject
  else if c = ',' then some .comma
  else if c = ':' then some .colon
  else none

/-- Puts the bare word that ends here in front of the lexemes that follow. -/
def closeBare (word : List Char) (rest : Option (List Lexeme)) : Option (List Lexeme) := do
  let w ← Lexeme.ofBare word.reverse
  let ls ← rest
  return w :: ls

/-- Cuts the rest of a text into lexemes. -/
def lexemesFrom : Mode → List Char → Option (List Lexeme)
  | .between, [] => some []
  | .bare word, [] => closeBare word (some [])
  | .inText _ _, [] => none
  | .between, c :: rest =>
    if isSpace c then lexemesFrom .between rest
    else if c = '"' then lexemesFrom (.inText [] false) rest
    else match mark? c with
      | some m => (lexemesFrom .between rest).map (m :: ·)
      | none => lexemesFrom (.bare [c]) rest
  | .bare word, c :: rest =>
    if isSpace c then closeBare word (lexemesFrom .between rest)
    else if c = '"' then closeBare word (lexemesFrom (.inText [] false) rest)
    else match mark? c with
      | some m => closeBare word ((lexemesFrom .between rest).map (m :: ·))
      | none => lexemesFrom (.bare (c :: word)) rest
  | .inText body true, c :: rest => lexemesFrom (.inText (c :: body) false) rest
  | .inText body false, c :: rest =>
    if c = '"' then do
      let t ← Lexeme.ofText body.reverse
      let ls ← lexemesFrom .between rest
      return t :: ls
    else lexemesFrom (.inText (c :: body) (c = '\\')) rest

/-- The lexemes of a whole text. -/
def lexemes (s : List Char) : Option (List Lexeme) := lexemesFrom .between s

end RowFilter.Json
