import TextGrammar.Text.Blank
import TextGrammar.Text.Split

/-! # Commands of the preview shell

A line holds a command word, in any case, and after the first blank what the command is about.
-/

namespace TextGrammar.Preview

/-- A natural number below a bound, written in digits, with or without a plus sign. -/
def natural? (bound : Nat) (text : String) : Option Nat :=
  let digits := match text.toList with
    | '+' :: rest => rest
    | digits => digits
  if digits.isEmpty || !digits.all Char.isDigit then none
  else
    let value := digits.foldl (fun value ch => value * 10 + (ch.toNat - '0'.toNat)) 0
    if value < bound then some value else none

/-- Numbers that a word of the machine holds are below this. -/
def wordBound : Nat := UInt64.size

/-- What a line asks for. A count is absent when it is not a positive number. -/
inductive Command
  | quit
  | help
  | flatten (rule : String)
  | origin
  | bulk (count : Option Nat)
  | stack (symbol : String)
  | json
  | clear
  | seed (text : String)
  | unknown (word : String)
deriving DecidableEq, Repr

/-- The number of passages that a command asks for, if it asks for some. -/
def Command.count? : Command → Option Nat
  | .bulk count => count
  | _ => none

/-- The word of a line in lower case, and the rest without the blanks around it. -/
def words (line : String) : String × String :=
  match Text.cutWhere? Text.isBlank line with
  | some (word, rest) => (Text.lower word, Text.trim rest)
  | none => (Text.lower line, "")

/-- Read a line; a blank one holds no command. -/
def Command.parse? (line : String) : Option Command :=
  let line := Text.trim line
  if line = "" then none
  else
    let (word, rest) := words line
    some <|
      if ["quit", "exit", "q"].contains word then .quit
      else if ["help", "h", "?"].contains word then .help
      else if word = "flatten" then .flatten rest
      else if word = "origin" then .origin
      else if word = "bulk" then .bulk ((natural? wordBound rest).filter (0 < ·))
      else if word = "stack" then .stack rest
      else if word = "json" then .json
      else if word = "clear" then .clear
      else if word = "seed" then .seed rest
      else .unknown word

end TextGrammar.Preview
