import TextGrammar.Preview.Shell

/-! # The preview tool

The tool reads its arguments, loads a grammar with the English modifiers, and starts the shell.
-/

namespace TextGrammar.Preview

/-- The arguments of the tool. -/
structure Arguments where
  path : Option String := none
  seed : UInt64 := 42
  origin : String := "origin"

/-- Read arguments; the later of two settles. A seed that is not a number counts as the default, and
there is no answer when an argument is unknown or lacks its value. -/
def Arguments.parse? (arguments : Arguments) : List String → Option Arguments
  | [] => some arguments
  | "--grammar" :: path :: rest => parse? { arguments with path := some path } rest
  | "--seed" :: seed :: rest =>
    parse? { arguments with seed := ((natural? wordBound seed).map UInt64.ofNat).getD 42 } rest
  | "--origin" :: origin :: rest => parse? { arguments with origin } rest
  | _ => none

/-- How to call the tool. -/
def usage : String :=
  lines [
    "Usage: preview --grammar <path> [--seed <n>] [--origin <symbol>]",
    "",
    "  --grammar   RON or JSON grammar file, or a directory of .ron files",
    "  --seed      RNG seed (default 42)",
    "  --origin    symbol expanded by 'origin' and 'bulk' (default origin)"]

/-- The source of rules that stands at a path. -/
def sourceAt (files : Files) (path : String) : Except LoadError Source :=
  match files path with
  | some (.folder _) => .ok (.ronFolder path)
  | entry =>
    if FilePath.extension? path = some "json" then return .json (← readText entry)
    else .ok (.ronFile path)

/-- Load the grammar at a path. -/
def load (files : Files) (path : String) : Except LoadError Grammar := do
  let source ← sourceAt files path
  Recipe.build { sources := [source], baseModifiers := true } files

/-- Start the shell, or say why not. -/
def start (files : Files) (words : List String) : Except Output Shell :=
  if words = [] ∨ words.head? = some "--help" ∨ words.head? = some "-h" then
    .error { text := usage }
  else
    match Arguments.parse? {} words with
    | none => .error { text := usage, code := 1 }
    | some ⟨none, _, _⟩ => .error { text := usage, code := 1 }
    | some ⟨some path, seed, origin⟩ =>
      match load files path with
      | .error _ => .error { code := 1 }
      | .ok grammar =>
        .ok { grammar, seed, rolls := .ofSeed seed, originRule := "#" ++ origin ++ "#" }

/-- The lines of an input; the last may lack its end. -/
def inputLines (input : String) : List String :=
  let parts := Text.split '\n' input
  if parts.getLast? = some "" then parts.dropLast else parts

/-- Run the tool on a whole input. -/
def run (files : Files) (words : List String) (input : String) : Output :=
  match start files words with
  | .error output => output
  | .ok shell =>
    let output := shell.runLines (inputLines input)
    { output with text := shell.greeting ++ output.text }

end TextGrammar.Preview
