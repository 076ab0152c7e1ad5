import TextGrammar.WrittenRules

/-! # Writing JSON

Written rules are laid out on lines of their own, two blanks deeper for every level. Characters
stand for themselves, but for quotes, backslashes and controls.
-/

namespace TextGrammar.Json

/-- How a character stands in a text. -/
def writtenChar (ch : Char) : List Char :=
  if ch = '"' ∨ ch = '\\' then ['\\', ch]
  else if ch.toNat = 0x08 then ['\\', 'b']
  else if ch.toNat = 0x0C then ['\\', 'f']
  else if ch = '\n' then ['\\', 'n']
  else if ch = '\r' then ['\\', 'r']
  else if ch = '\t' then ['\\', 't']
  else if ch.toNat < 0x20 then
    ['\\', 'u', '0', '0'] ++ [Nat.digitChar (ch.toNat / 16), Nat.digitChar (ch.toNat % 16)]
  else [ch]

/-- A text between quotes. -/
def writtenText (text : String) : List Char :=
  '"' :: text.toList.flatMap writtenChar ++ ['"']

/-- The start of a line at a level. -/
def newLine (level : Nat) : List Char :=
  '\n' :: List.replicate (2 * level) ' '

/-- Parts that are already written, each on its line and with a comma between them. -/
def writtenLines (level : Nat) (parts : List (List Char)) : List Char :=
  List.intercalate [','] (parts.map (newLine level ++ ·))

/-- A list of parts, at a level. -/
def writtenList (level : Nat) (parts : List (List Char)) : List Char :=
  if parts.isEmpty then ['[', ']']
  else ['['] ++ writtenLines (level + 1) parts ++ newLine level ++ [']']

/-- A table of parts by name, at a level. -/
def writtenTable (level : Nat) (parts : List (String × List Char)) : List Char :=
  if parts.isEmpty then ['{', '}']
  else ['{'] ++
    writtenLines (level + 1) (parts.map fun (name, part) => writtenText name ++ [':', ' '] ++ part)
    ++ newLine level ++ ['}']

mutual

/-- Rules at a level. -/
def writtenRules (level : Nat) : WrittenRules → List Char
  | .one rule => writtenText rule
  | .many rules => writtenList level (rules.map writtenText)
  | .conditional condition branches defaults =>
    writtenTable level [
      ("condition", writtenText condition),
      ("branches", writtenTable (level + 1) (writtenBranches (level + 2) branches)),
      ("default", writtenList (level + 1) (defaults.map writtenText))]

/-- Branches at a level. -/
def writtenBranches (level : Nat) : List (String × WrittenRules) → List (String × List Char)
  | [] => []
  | (key, rules) :: rest => (key, writtenRules level rules) :: writtenBranches level rest

end

/-- A grammar in JSON. -/
def write (grammar : WrittenGrammar) : String :=
  .ofList (writtenTable 0 (writtenBranches 1 grammar))

end TextGrammar.Json
