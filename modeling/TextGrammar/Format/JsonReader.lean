import TextGrammar.Decimal.Scaled
import TextGrammar.Format.Datum

/-! # Reading JSON

A text is cut into tokens, and the tokens are put together with a stack of the lists and tables that
are still open. The dialect is strict, and nesting has a limit. Numbers that no float can hold and
halves of surrogate pairs that stand alone are refused.
-/

namespace TextGrammar.Json

/-- The value of a hexadecimal digit. -/
def hexDigit? (ch : Char) : Option Nat :=
  if ch.isDigit then some (ch.toNat - '0'.toNat)
  else if 'a' ≤ ch ∧ ch ≤ 'f' then some (ch.toNat - 'a'.toNat + 10)
  else if 'A' ≤ ch ∧ ch ≤ 'F' then some (ch.toNat - 'A'.toNat + 10)
  else none

/-- The number that hexadecimal digits write. -/
def hexNumber? (digits : List Char) : Option Nat :=
  digits.foldlM (fun value ch => (hexDigit? ch).map (value * 16 + ·)) 0

/-- The code that a letter after a backslash stands for. -/
def shortEscape? : Char → Option Nat
  | '"' => some 0x22
  | '\\' => some 0x5C
  | '/' => some 0x2F
  | 'b' => some 0x08
  | 'f' => some 0x0C
  | 'n' => some 0x0A
  | 'r' => some 0x0D
  | 't' => some 0x09
  | _ => none

/-- The codes of a text up to its closing quote, and what follows. Codes written as escapes may be
halves of surrogate pairs. -/
def textCodes? : List Char → Option (List Nat × List Char)
  | [] => none
  | '"' :: rest => some ([], rest)
  | '\\' :: 'u' :: a :: b :: c :: d :: rest => do
    let code ← hexNumber? [a, b, c, d]
    let (codes, rest) ← textCodes? rest
    some (code :: codes, rest)
  | '\\' :: ch :: rest => do
    let code ← shortEscape? ch
    let (codes, rest) ← textCodes? rest
    some (code :: codes, rest)
  | ch :: rest =>
    if ch = '\\' ∨ ch.toNat < 0x20 then none
    else do
      let (codes, rest) ← textCodes? rest
      some (ch.toNat :: codes, rest)

/-- Whether a code is the first half of a surrogate pair. -/
def isHighSurrogate (code : Nat) : Bool :=
  0xD800 ≤ code && code < 0xDC00

/-- Whether a code is the second half of a surrogate pair. -/
def isLowSurrogate (code : Nat) : Bool :=
  0xDC00 ≤ code && code < 0xE000

/-- The characters of codes, with the halves of surrogate pairs joined. -/
def joinCodes? : List Nat → Option (List Char)
  | [] => some []
  | [code] =>
    if isHighSurrogate code || isLowSurrogate code then none else some [.ofNat code]
  | high :: low :: rest =>
    if isHighSurrogate high then
      if isLowSurrogate low then
        (joinCodes? rest).map (.ofNat (0x10000 + (high - 0xD800) * 0x400 + (low - 0xDC00)) :: ·)
      else none
    else if isLowSurrogate high then none
    else (joinCodes? (low :: rest)).map (.ofNat high :: ·)

/-- The number that decimal digits write. -/
def digitsValue (digits : List Char) : Nat :=
  digits.foldl (fun value ch => value * 10 + (ch.toNat - '0'.toNat)) 0

/-- The digits at the front of a text, and what follows. -/
def takeDigits (chars : List Char) : List Char × List Char :=
  (chars.takeWhile Char.isDigit, chars.dropWhile Char.isDigit)

/-- The digits of a fraction, if the text goes on with one; none if the point has no digits. -/
def fraction? : List Char → Option (List Char × List Char)
  | '.' :: rest =>
    match takeDigits rest with
    | ([], _) => none
    | (digits, rest) => some (digits, rest)
  | rest => some ([], rest)

/-- The power of ten that the text goes on with, if any; none if the mark has no digits. -/
def power? : List Char → Option (Option Int × List Char)
  | mark :: rest =>
    if mark = 'e' ∨ mark = 'E' then
      let (negative, rest) := match rest with
        | '-' :: rest => (true, rest)
        | '+' :: rest => (false, rest)
        | rest => (false, rest)
      match takeDigits rest with
      | ([], _) => none
      | (digits, rest) =>
        let size : Int := digitsValue digits
        some (some (if negative then -size else size), rest)
    else some (none, mark :: rest)
  | [] => some (none, [])

/-- A number at the front of a text, and what follows. A whole number that a word holds is kept as
it is; any other becomes a float, and one that is too large is refused. -/
def number? (chars : List Char) : Option (Datum × List Char) := do
  let (negative, rest) := match chars with
    | '-' :: rest => (true, rest)
    | rest => (false, rest)
  let (whole, rest) := takeDigits rest
  if whole = [] ∨ (whole.head? = some '0' ∧ whole ≠ ['0']) then none
  let (fraction, rest) ← fraction? rest
  let (power, rest) ← power? rest
  let isWhole := fraction = [] ∧ power = none
  let natural := digitsValue whole
  if isWhole ∧ ¬negative ∧ natural < UInt64.size then
    some (.natural natural, rest)
  else
    let value ← (Decimal.Scaled.ofDigits whole fraction (power.getD 0)).toFloat?
    some (.number (if negative then -value else value), rest)

/-- The smallest parts of a text that mean something. -/
inductive Token
  | openList
  | closeList
  | openTable
  | closeTable
  | comma
  | colon
  | atom (value : Datum)

/-- The token of a punctuation mark. -/
def mark? : Char → Option Token
  | '[' => some .openList
  | ']' => some .closeList
  | '{' => some .openTable
  | '}' => some .closeTable
  | ',' => some .comma
  | ':' => some .colon
  | _ => none

/-- Whether a character may stand between tokens. -/
def isBlank (ch : Char) : Bool :=
  ch == ' ' || ch == '\n' || ch == '\t' || ch == '\r'

/-- The token at the front of a text that does not start with a blank, and what follows. -/
def token? : List Char → Option (Token × List Char)
  | '"' :: rest => do
    let (codes, rest) ← textCodes? rest
    let chars ← joinCodes? codes
    some (.atom (.text (.ofList chars)), rest)
  | 'n' :: 'u' :: 'l' :: 'l' :: rest => some (.atom .nothing, rest)
  | 't' :: 'r' :: 'u' :: 'e' :: rest => some (.atom (.truth true), rest)
  | 'f' :: 'a' :: 'l' :: 's' :: 'e' :: rest => some (.atom (.truth false), rest)
  | [] => none
  | ch :: rest =>
    match mark? ch with
    | some token => some (token, rest)
    | none => do
      let (value, rest) ← number? (ch :: rest)
      some (.atom value, rest)

/-- The tokens of a text, after those already read, latest first. Every step takes a character, so
as many steps as there are characters will do. -/
def tokensOnto? (read : List Token) : Nat → List Char → Option (List Token)
  | _, [] => some read.reverse
  | 0, _ :: _ => none
  | steps + 1, ch :: rest =>
    if isBlank ch then tokensOnto? read steps rest
    else do
      let (token, rest) ← token? (ch :: rest)
      tokensOnto? (token :: read) steps rest

/-- The tokens of a text. -/
def tokens? (text : List Char) : Option (List Token) :=
  tokensOnto? [] text.length text

/-- A list or table that is still open, with what it holds so far, latest first. -/
inductive Frame
  | list (items : List Datum)
  | table (entries : List (Datum × Datum)) (key : Datum)

/-- What may come next. -/
inductive Expecting
  /-- A value. -/
  | value
  /-- A value, or the end of a list just opened. -/
  | valueOrEnd
  /-- A key for a table with these entries, or its end while it has none. -/
  | key (entries : List (Datum × Datum)) (mayEnd : Bool)
  /-- The colon after a key. -/
  | colon (entries : List (Datum × Datum)) (key : Datum)
  /-- A comma or the end of what is open, after a value that is complete. -/
  | next (value : Datum)

/-- How far the tokens have been put together: what may come next, and what is open. -/
structure Assembly where
  expecting : Expecting := .value
  frames : List Frame := []

/-- Put one more token in its place. At most `limit` lists and tables may be open. -/
def Assembly.step? (limit : Nat) : Assembly → Token → Option Assembly
  | ⟨.value, frames⟩, token => start frames token
  | ⟨.valueOrEnd, frames⟩, .closeList =>
    match frames with
    | .list items :: frames => some ⟨.next (.list items.reverse), frames⟩
    | _ => none
  | ⟨.valueOrEnd, frames⟩, token => start frames token
  | ⟨.key entries true, frames⟩, .closeTable => some ⟨.next (.table entries.reverse), frames⟩
  | ⟨.key entries _, frames⟩, .atom (.text key) => some ⟨.colon entries (.text key), frames⟩
  | ⟨.colon entries key, frames⟩, .colon => some ⟨.value, .table entries key :: frames⟩
  | ⟨.next value, .list items :: frames⟩, .comma => some ⟨.value, .list (value :: items) :: frames⟩
  | ⟨.next value, .list items :: frames⟩, .closeList =>
    some ⟨.next (.list (value :: items).reverse), frames⟩
  | ⟨.next value, .table entries key :: frames⟩, .comma =>
    some ⟨.key ((key, value) :: entries) false, frames⟩
  | ⟨.next value, .table entries key :: frames⟩, .closeTable =>
    some ⟨.next (.table ((key, value) :: entries).reverse), frames⟩
  | _, _ => none
where
  /-- Begin a value. -/
  start (frames : List Frame) : Token → Option Assembly
    | .atom value => some ⟨.next value, frames⟩
    | .openList => if frames.length < limit then some ⟨.valueOrEnd, .list [] :: frames⟩ else none
    | .openTable => if frames.length < limit then some ⟨.key [] true, frames⟩ else none
    | _ => none

/-- The datum that tokens amount to. -/
def assemble? (limit : Nat) (tokens : List Token) : Option Datum := do
  match ← tokens.foldlM (Assembly.step? limit) {} with
  | ⟨.next value, []⟩ => some value
  | _ => none

/-- The greatest number of lists and tables that may be open at once. -/
def maxNesting : Nat := 127

/-- Read a text as one datum. -/
def read? (text : String) : Option Datum :=
  (tokens? text.toList).bind (assemble? maxNesting)

end TextGrammar.Json
