import TextGrammar.Format.JsonReader
import TextGrammar.Settings

/-! # Reading RON

RON has texts and numbers, lists, maps, tuples and structs, with comments between them. The readers
below take what they read off the front of a text. Values are read as plain data; settings are read
field by field, because a field of a known type admits fewer spellings than a value of any type.
-/

namespace TextGrammar.Ron

/-- Takes something off the front of a text, or fails. -/
abbrev Reader := StateT (List Char) Option

/-- Whether a character may stand between the parts of a document. -/
def isBlank (ch : Char) : Bool :=
  ch == ' ' || ch == '\n' || ch == '\t' || ch == '\r'

mutual

/-- Drop blanks and comments; a comment that does not end is refused, and so is a lone slash. -/
def dropBlanks? : List Char → Option (List Char)
  | '/' :: '/' :: rest => dropLine? rest
  | '/' :: '*' :: rest => dropComment? 0 rest
  | '/' :: _ => none
  | ch :: rest => if isBlank ch then dropBlanks? rest else some (ch :: rest)
  | [] => some []

/-- Drop the rest of a line, and the blanks after it. -/
def dropLine? : List Char → Option (List Char)
  | [] => some []
  | ch :: rest => if ch = '\n' then dropBlanks? rest else dropLine? rest

/-- Drop the rest of a comment inside a number of others, and the blanks after them all. -/
def dropComment? : Nat → List Char → Option (List Char)
  | depth, '/' :: '*' :: rest => dropComment? (depth + 1) rest
  | 0, '*' :: '/' :: rest => dropBlanks? rest
  | depth + 1, '*' :: '/' :: rest => dropComment? depth rest
  | depth, _ :: rest => dropComment? depth rest
  | _, [] => none

end

/-- Drop blanks and comments. -/
def blanks : Reader Unit := fun text =>
  (dropBlanks? text).map ((), ·)

/-- Take some characters if the text starts with them, and say whether it did. -/
def took (chars : List Char) : Reader Bool := fun text =>
  if chars.isPrefixOf text then some (true, text.drop chars.length) else some (false, text)

/-- Take some characters, which must be there. -/
def expect (chars : List Char) : Reader Unit := do
  unless ← took chars do failure

/-- Whether a character may stand in a name. -/
def isNameChar (ch : Char) : Bool :=
  ch.isAlphanum || ch == '_'

/-- Whether a character may stand in a name that is written with a mark in front. -/
def isMarkedNameChar (ch : Char) : Bool :=
  isNameChar ch || ch == '.' || ch == '+' || ch == '-'

/-- Take a word if the text starts with it and no longer name, and say whether it did. -/
def tookWord (word : List Char) : Reader Bool := fun text =>
  let rest := text.drop word.length
  if word.isPrefixOf text && !rest.head?.any isNameChar then some (true, rest)
  else some (false, text)

/-- Take the first of some words that the text starts with, and give what it stands for. -/
def wordAmong? {α : Type} : List (String × α) → Reader (Option α)
  | [] => pure none
  | (word, meaning) :: rest => do
    if ← tookWord word.toList then pure (some meaning) else wordAmong? rest

/-- The name at the front of a text, and what follows. -/
def name? : List Char → Option (List Char × List Char)
  | 'r' :: '"' :: _ => none
  | 'r' :: '#' :: rest =>
    let name := rest.takeWhile isMarkedNameChar
    if name.isEmpty then none else some (name, rest.drop name.length)
  | text =>
    let name := text.takeWhile isNameChar
    let rest := text.drop name.length
    if name.isEmpty || name.head?.any Char.isDigit || rest.head?.any isMarkedNameChar then none
    else some (name, rest)

/-- Take a comma, with the blanks around it, and say whether there was one. -/
def comma : Reader Bool := do
  blanks
  if ← took [','] then
    blanks
    pure true
  else pure false

/-- Take items up to a closing mark. They are separated by commas, and one more may follow the last;
every item takes a character, so as many steps as there are characters will do. -/
def items {α : Type} (item : Reader α) (close : Char) : Nat → Reader (List α)
  | 0 => failure
  | steps + 1 => do
    blanks
    if ← took [close] then pure []
    else
      let first ← item
      if ← comma then
        let others ← items item close steps
        pure (first :: others)
      else
        expect [close]
        pure [first]

/-- Take items up to a closing mark. -/
def itemsUntil {α : Type} (item : Reader α) (close : Char) : Reader (List α) := do
  let text ← get
  items item close (text.length + 1)

/-! ## Texts and characters -/

/-- The digits of a code point in braces, at most six, and what follows the closing brace. -/
def bracedCode? : Nat → List Char → List Char → Option (Nat × List Char)
  | _, digits, '}' :: rest =>
    if digits.isEmpty then none else (Json.hexNumber? digits.reverse).map (·, rest)
  | room + 1, digits, ch :: rest => bracedCode? room (ch :: digits) rest
  | _, _, _ => none

/-- The character that stands after a backslash, and what follows. -/
def escape? : List Char → Option (Char × List Char)
  | '\'' :: rest => some ('\'', rest)
  | '"' :: rest => some ('"', rest)
  | '\\' :: rest => some ('\\', rest)
  | 'n' :: rest => some ('\n', rest)
  | 'r' :: rest => some ('\r', rest)
  | 't' :: rest => some ('\t', rest)
  | '0' :: rest => some ('\x00', rest)
  | 'x' :: high :: low :: rest => (Json.hexNumber? [high, low]).map (.ofNat ·, rest)
  | 'u' :: '{' :: rest => do
    let (code, rest) ← bracedCode? 6 [] rest
    if code.isValidChar then some (.ofNat code, rest) else none
  | _ => none

/-- The characters up to a closing quote, and what follows; every step takes a character. -/
def quoted? : Nat → List Char → Option (List Char × List Char)
  | _, '"' :: rest => some ([], rest)
  | steps + 1, '\\' :: rest => do
    let (ch, rest) ← escape? rest
    let (chars, rest) ← quoted? steps rest
    some (ch :: chars, rest)
  | steps + 1, ch :: rest => do
    let (chars, rest) ← quoted? steps rest
    some (ch :: chars, rest)
  | _, _ => none

/-- The characters up to a closing mark, and what follows. -/
def upTo? (close : List Char) : List Char → Option (List Char × List Char)
  | [] => none
  | ch :: rest =>
    if close.isPrefixOf (ch :: rest) then some ([], (ch :: rest).drop close.length)
    else do
      let (chars, rest) ← upTo? close rest
      some (ch :: chars, rest)

/-- Take a text, either with escapes or, after an `r` and any number of hash marks, without. -/
def text : Reader String := fun chars =>
  match chars with
  | '"' :: rest => (quoted? rest.length rest).map fun (read, rest) => (.ofList read, rest)
  | 'r' :: rest =>
    let marks := rest.takeWhile (· == '#')
    match rest.drop marks.length with
    | '"' :: rest => (upTo? ('"' :: marks) rest).map fun (read, rest) => (.ofList read, rest)
    | _ => none
  | _ => none

/-- Take a single character between quotes. -/
def letter : Reader Char := fun chars =>
  match chars with
  | '\'' :: '\\' :: rest =>
    match escape? rest with
    | some (ch, '\'' :: rest) => some (ch, rest)
    | _ => none
  | '\'' :: ch :: '\'' :: rest => if ch = '\'' then none else some (ch, rest)
  | _ => none

/-! ## Numbers -/

/-- Whether a character may stand in a whole number, in some base. -/
def isWholeChar (ch : Char) : Bool :=
  (Json.hexDigit? ch).isSome || ch == '_'

/-- Whether a character may stand in a decimal number. -/
def isDecimalChar (ch : Char) : Bool :=
  ch.isDigit || ch == '.' || ch == 'e' || ch == 'E' || ch == '+' || ch == '-' || ch == '_'

/-- The value of digits in a base, underscores left out. -/
def wholeValue? (base : Nat) (digits : List Char) : Option Nat :=
  (digits.filter (· != '_')).foldlM (fun value ch => do
    let digit ← Json.hexDigit? ch
    if digit < base then some (value * base + digit) else none) 0

/-- Take a whole number without a sign, in base ten or as its mark says. -/
def whole : Reader Nat := fun chars =>
  let (base, rest) := match chars with
    | '0' :: 'x' :: rest => (16, rest)
    | '0' :: 'b' :: rest => (2, rest)
    | '0' :: 'o' :: rest => (8, rest)
    | rest => (10, rest)
  let digits := rest.takeWhile isWholeChar
  if digits.isEmpty || digits.head? == some '_' then none
  else (wholeValue? base digits).map (·, rest.drop digits.length)

/-- The sign at the front of a number, and what follows. -/
def signed : List Char → Bool × List Char
  | '-' :: rest => (true, rest)
  | '+' :: rest => (false, rest)
  | rest => (false, rest)

/-- The float that a decimal text writes, which must be a number as a whole. -/
def decimalValue? (chars : List Char) : Option Float := do
  let (negative, rest) := signed chars
  let (whole, rest) := Json.takeDigits rest
  let (fraction, rest) := match rest with
    | '.' :: rest => Json.takeDigits rest
    | rest => ([], rest)
  if whole = [] ∧ fraction = [] then none
  match ← Json.power? rest with
  | (power, []) =>
    some (Decimal.toFloat
      ⟨negative, Json.digitsValue (whole ++ fraction), power.getD 0 - fraction.length⟩)
  | _ => none

/-- The floats that are written in words. -/
def floatWords : List (String × Float) := [
  ("inf", 1 / 0), ("+inf", 1 / 0), ("-inf", -1 / 0),
  ("NaN", 0 / 0), ("+NaN", 0 / 0), ("-NaN", 0 / 0)]

/-- Take a float. -/
def float : Reader Float := do
  match ← wordAmong? floatWords with
  | some value => pure value
  | none => fun chars =>
    let digits := chars.takeWhile isDecimalChar
    (decimalValue? digits).map (·, chars.drop digits.length)

/-- Take a whole number that a word can hold, if the text does not go on as a decimal one. -/
def wholeDatum : Reader Datum := fun chars => do
  let (negative, digits) := signed chars
  if (digits.takeWhile isWholeChar).length < (digits.takeWhile isDecimalChar).length then none
  let (value, rest) ← whole digits
  if digits.length = chars.length then
    if value < UInt64.size then some (.natural value, rest) else none
  else if value < Nat.pow 2 63 ∨ (negative ∧ value = Nat.pow 2 63) then
    some (.number (Decimal.toFloat ⟨negative, value, 0⟩), rest)
  else none

/-- Take a number of any kind. What is not a whole number that a word can hold is a float. -/
def numberDatum : Reader Datum :=
  wholeDatum <|> (Datum.number <$> float)

/-! ## Values -/

/-- What a document's extensions change in how values are read. -/
structure Dialect where
  /-- A value may be marked as present without parentheses around it. -/
  bareSome : Bool := false

/-- Readers for what stands inside a value. -/
structure Inner where
  /-- Takes the value in one that is marked as present. -/
  marked : Reader Datum
  /-- Takes a member of a list, and a key or value of a table. -/
  member : Reader Datum

/-- Whether what stands in parentheses is a tuple, and not the fields of a struct. -/
def isTuple? (chars : List Char) : Option Bool :=
  match name? chars with
  | none => some true
  | some (_, rest) => do
    match ← dropBlanks? rest with
    | [] => none
    | ch :: _ => some (ch != ':')

/-- Take a key, a colon and a value. -/
def entry (key value : Reader Datum) : Reader (Datum × Datum) := do
  let first ← key
  blanks
  expect [':']
  blanks
  let second ← value
  pure (first, second)

/-- Take a field's name. -/
def fieldName : Reader Datum := fun chars =>
  (name? chars).map fun (name, rest) => (.text (.ofList name), rest)

/-- Take what stands in parentheses, if anything does: a tuple, or the fields of a struct. -/
def structure? (inner? : Option Inner) : Reader Datum := do
  if ← took ['('] then
    let inner ← inner?
    blanks
    let tuple ← (isTuple? (← get) : Option Bool)
    if tuple then Datum.list <$> itemsUntil inner.member ')'
    else Datum.table <$> itemsUntil (entry fieldName inner.member) ')'
  else pure .nothing

/-- Take a value that is marked as present. -/
def presentValue (dialect : Dialect) (marked : Reader Datum) : Reader Datum := do
  blanks
  if ← took ['('] then
    blanks
    let value ← marked
    let _ ← comma
    expect [')']
    pure (.present value)
  else if dialect.bareSome then Datum.present <$> marked
  else failure

/-- The values that are single words and no names. -/
def valueWords : List (String × Datum) := [
  ("true", .truth true), ("false", .truth false), ("None", .nothing),
  ("inf", .number (1 / 0)), ("NaN", .number (0 / 0))]

/-- Take a value; without readers for what stands inside, it cannot hold any other. -/
def valueWith (dialect : Dialect) (inner? : Option Inner) : Reader Datum := do
  if let some value := ← wordAmong? valueWords then pure value
  else if ← tookWord "Some".toList then
    let inner ← inner?
    presentValue dialect inner.marked
  else if ← took ['(', ')'] then pure .nothing
  else
    let chars ← get
    match name? chars with
    | some (_, rest) =>
      set rest
      blanks
      structure? inner?
    | none =>
      match chars with
      | '(' :: _ => structure? inner?
      | '[' :: rest =>
        let inner ← inner?
        set rest
        Datum.list <$> itemsUntil inner.member ']'
      | '{' :: rest =>
        let inner ← inner?
        set rest
        Datum.table <$> itemsUntil (entry inner.member inner.member) '}'
      | '"' :: _ | 'r' :: _ => Datum.text <$> text
      | '\'' :: _ => Datum.letter <$> letter
      | ch :: _ =>
        if ch.isDigit || ch == '+' || ch == '-' || ch == '.' then numberDatum else failure
      | [] => failure

/-- Take a value, with room for some levels in it. A mark takes one level; a list or table takes one
for itself and one for its members. -/
def value (dialect : Dialect) : Nat → Reader Datum
  | 0 => valueWith dialect none
  | 1 => valueWith dialect (some ⟨value dialect 0, failure⟩)
  | levels + 2 => valueWith dialect (some ⟨value dialect (levels + 1), value dialect levels⟩)

/-- The levels that a document may have. -/
def maxLevels : Nat := 128

/-! ## Documents -/

/-- The extensions that a document may ask for, with the dialect that each makes of another. -/
def extensions : List (String × (Dialect → Dialect)) := [
  ("unwrap_newtypes", id),
  ("implicit_some", fun dialect => { dialect with bareSome := true }),
  ("unwrap_variant_newtypes", id)]

/-- Take the name of an extension. -/
def extensionName (dialect : Dialect) : Reader Dialect := fun chars => do
  let (name, rest) ← name? chars
  let extend ← extensions.lookup (.ofList name)
  some (extend dialect, rest)

/-- Take further names of extensions, each after a comma. -/
def extensionNames (dialect : Dialect) : Nat → Reader Dialect
  | 0 => pure dialect
  | steps + 1 => do
    if ← comma then
      if (← get).head?.any isNameChar then
        extensionNames (← extensionName dialect) steps
      else pure dialect
    else pure dialect

/-- Take a request for extensions. -/
def extensionRequest (dialect : Dialect) : Reader Dialect := do
  for mark in ["#", "!", "[", "enable", "("] do
    expect mark.toList
    blanks
  let dialect ← extensionName dialect
  let dialect ← extensionNames dialect (← get).length
  expect [')']
  blanks
  expect [']']
  blanks
  pure dialect

/-- Take requests for extensions, of which there may be several. -/
def extensionRequests (dialect : Dialect) : Nat → Reader Dialect
  | 0 => pure dialect
  | steps + 1 => do
    if (← get).head? == some '#' then
      extensionRequests (← extensionRequest dialect) steps
    else pure dialect

/-- Read a whole text. -/
def document? {α : Type} (reader : Dialect → Reader α) (text : String) : Option α := do
  let body : Reader α := do
    blanks
    let dialect ← extensionRequests {} (← get).length
    let value ← reader dialect
    blanks
    pure value
  match ← body.run text.toList with
  | (value, []) => some value
  | _ => none

/-- Read a text as a map of any values by text. -/
def read? (text : String) : Option Datum :=
  document? (fun dialect => do
    expect ['{']
    let member := entry (Datum.text <$> Ron.text) (value dialect (maxLevels - 2))
    Datum.table <$> itemsUntil member '}') text

/-! ## Settings -/

/-- A field of settings with the value it is given; none for a field that settings do not have. -/
inductive Setting
  | maxDepth (value : Nat)
  | falloff (value : Float)
  | resolveEscapes (value : Bool)

/-- Take a truth value. -/
def truth : Reader Bool := do
  let found ← wordAmong? [("true", true), ("false", false)]
  found

/-- Take a field of settings. -/
def setting (dialect : Dialect) : Reader (Option Setting) := fun chars => do
  let (name, rest) ← name? chars
  let reader : Reader (Option Setting) := do
    blanks
    expect [':']
    blanks
    match String.ofList name with
    | "max_depth" =>
      let depth ← whole
      if depth < UInt64.size then pure (some (.maxDepth depth)) else failure
    | "falloff" => (some <| .falloff ·) <$> float
    | "resolve_escapes" => (some <| .resolveEscapes ·) <$> truth
    | _ =>
      let _ ← value dialect (maxLevels - 2)
      pure none
  reader.run rest

/-- Put fields into settings, each at most once. -/
def applySettings? : List Setting → Settings → Option Settings
  | [], settings => some settings
  | .maxDepth value :: rest, settings =>
    if rest.any fun | .maxDepth _ => true | _ => false then none
    else applySettings? rest { settings with maxDepth := value }
  | .falloff value :: rest, settings =>
    if rest.any fun | .falloff _ => true | _ => false then none
    else applySettings? rest { settings with falloff := value }
  | .resolveEscapes value :: rest, settings =>
    if rest.any fun | .resolveEscapes _ => true | _ => false then none
    else applySettings? rest { settings with resolveEscapes := value }

/-- Read a text as settings, which may be marked by name; what it leaves out keeps its default. -/
def settings? (text : String) : Option Settings := do
  let fields ← document? (fun dialect => do
    match name? (← get) with
    | some (name, rest) => if String.ofList name = "GrammarConfig" then set rest else failure
    | none => pure ()
    blanks
    expect ['(']
    itemsUntil (setting dialect) ')') text
  applySettings? (fields.filterMap id) {}

end TextGrammar.Ron
