import TextGrammar.Expansion.Entry
import TextGrammar.Loading.Recipe
import TextGrammar.Output
import TextGrammar.Preview.Command

/-! # The preview shell

A shell for trying out a grammar: it expands rules, shows stacks, and keeps the grammar's state from
one command to the next until it is cleared.
-/

namespace TextGrammar.Preview

/-- What the shell keeps between commands. -/
structure Shell where
  grammar : Grammar
  seed : UInt64
  rolls : Rolls
  /-- The rule that `origin` and `bulk` expand. -/
  originRule : String

namespace Shell

/-- The shell with what an expansion left behind. -/
def resume (shell : Shell) (state : Expansion) : Shell :=
  { shell with grammar := state.grammar, rolls := state.rolls }

/-- Expand a rule and show its text and problems. -/
def expand (shell : Shell) (rule : String) : String × Shell :=
  let (result, state) := shell.grammar.expand rule shell.rolls
  let text := match result with
    | .ok root =>
      "\n" ++ root.text ++ "\n\n" ++ lines (root.errors.map ("  ! " ++ ·.message))
    | .error tag => lines ["ERROR: " ++ tag.message]
  (text, shell.resume state)

/-- Expand the origin a number of times, each on a cleared grammar, after the passages and the count
of problems so far. An ambiguous tag ends it. -/
def passages (shell : Shell) (done : List String) (problems : Nat) :
    Nat → Except AmbiguousTag (List String × Nat) × Shell
  | 0 => (.ok (done.reverse, problems), shell)
  | count + 1 =>
    let (result, state) := shell.grammar.expand shell.originRule shell.rolls
    let shell := shell.resume state
    match result with
    | .error tag => (.error tag, shell)
    | .ok root =>
      { shell with grammar := shell.grammar.clear }.passages (root.text :: done)
        (problems + root.errors.length) count

/-- A number, with blanks in front up to a width. -/
def padded (width : Nat) (number : Nat) : String :=
  let digits := toString number
  .ofList (List.replicate (width - digits.length) ' ') ++ digits

/-- How many different texts a list has. Equal ones stand together once it is sorted. -/
def distinctCount (texts : List String) : Nat :=
  let sorted := texts.mergeSort fun a b => a ≤ b
  let changes := (sorted.zip sorted.tail).countP fun (a, b) => a != b
  if sorted.isEmpty then 0 else changes + 1

/-- Expand the origin a number of times and say how much the passages vary. -/
def bulk (shell : Shell) (count : Nat) : String × Shell :=
  let (result, shell) := shell.passages [] 0 count
  let text := match result with
    | .error tag => lines ["ERROR: " ++ tag.message]
    | .ok (passages, problems) =>
      lines (passages.mapIdx fun index passage => padded 4 (index + 1) ++ ". " ++ passage) ++
      "\n" ++ lines [
        "--- Variety Stats ---",
        "Unique passages: " ++ toString (distinctCount passages) ++ " / " ++
          toString passages.length,
        "Recorded errors: " ++ toString problems]
  (text, shell)

/-- One level of a stack, as shown. -/
def stackLine (level : Nat) (set : RuleSet) : String :=
  let choice := match set.condition? with
    | some condition => "if " ++ condition ++ " ... else "
    | none => ""
  "  [" ++ toString level ++ "] " ++ choice ++ Text.quotedList set.defaults

/-- The stack of a symbol, bottom first. -/
def showStack (shell : Shell) (name : String) : String :=
  match shell.grammar.symbol? name with
  | none => lines [s!"No symbol '{name}'"]
  | some symbol =>
    (if symbol.stack.isEmpty then lines [s!"'{name}' has an empty rule stack"] else "") ++
    lines (symbol.stack.reverse.mapIdx stackLine) ++
    lines ["  used " ++ toString symbol.log.length ++ " times"]

/-- Show the seed, or start its rolls over with another. -/
def reseed (shell : Shell) (text : String) : String × Shell :=
  if text = "" then (lines ["Current seed: " ++ toString shell.seed.toNat], shell)
  else
    match natural? wordBound text with
    | some number =>
      let seed := UInt64.ofNat number
      (lines ["Seed set to " ++ toString number], { shell with seed, rolls := .ofSeed seed })
    | none => (lines ["Invalid seed: " ++ text], shell)

/-- The commands, as the shell lists them. -/
def help : String :=
  lines [
    "Commands:",
    "  flatten <rule>   Expand a rule and print the text",
    "  origin           Expand the origin symbol",
    "  bulk <n>         Expand the origin n times with variety statistics",
    "  stack <symbol>   Show a symbol's rule stack, bottom first",
    "  json             Print the live grammar as JSON",
    "  clear            Drop pushed rules and usage records",
    "  seed <n>         Reset the RNG with a new seed",
    "  help             Show this help",
    "  quit             Exit"]

/-- Run a command. -/
def run (shell : Shell) : Command → String × Shell
  | .quit => (lines ["Goodbye."], shell)
  | .help => (help, shell)
  | .flatten rule =>
    if rule = "" then (lines ["Usage: flatten <rule>"], shell) else shell.expand rule
  | .origin => shell.expand shell.originRule
  | .bulk none => (lines ["Usage: bulk <n>"], shell)
  | .bulk (some count) => shell.bulk count
  | .stack name =>
    if name = "" then (lines ["Usage: stack <symbol>"], shell) else (shell.showStack name, shell)
  | .json => (lines [shell.grammar.toJson], shell)
  | .clear => (lines ["Grammar state cleared."], { shell with grammar := shell.grammar.clear })
  | .seed text => shell.reseed text
  | .unknown word => (lines [s!"Unknown command: {word}. Type 'help' for commands."], shell)

/-- What comes after a line: the shell as the line left it, or the end of the run with a code. -/
inductive Next
  | goOn (shell : Shell)
  | stop (code : Nat)

/-- The most passages that there can be room for: each takes 24 bytes before it is made. -/
def maxPassages : Nat := (Nat.pow 2 63 - 1) / 24

/-- Run a line: what it prints, and what comes after it. -/
def runLine (shell : Shell) (line : String) : String × Next :=
  match Command.parse? line with
  | none => ("", .goOn shell)
  | some command =>
    if command = .quit then ((shell.run command).1, .stop 0)
    else if command.count?.any (maxPassages < ·) then ("", .stop Output.crashed)
    else
      let (text, shell) := shell.run command
      (text, .goOn shell)

/-- What stands in front of every line of input. -/
def prompt : String := "preview> "

/-- Run lines until one ends the run or there are no more. -/
def runLines (shell : Shell) : List String → Output
  | [] => { text := prompt }
  | line :: rest =>
    match shell.runLine line with
    | (text, .stop code) => { text := prompt ++ text, code }
    | (text, .goOn shell) =>
      let others := shell.runLines rest
      { others with text := prompt ++ text ++ others.text }

/-- What the shell says when it starts. -/
def greeting (shell : Shell) : String :=
  lines [
    "Loaded " ++ toString shell.grammar.symbolNames.length ++ " symbols",
    "Seed: " ++ toString shell.seed.toNat,
    "Type 'help' for commands.",
    ""]

end Shell

end TextGrammar.Preview
