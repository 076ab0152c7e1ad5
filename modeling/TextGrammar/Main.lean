import TextGrammar.Lint.Tool
import TextGrammar.Preview.Tool

/-! # Command line

The first argument names the tool: `grammar_linter` checks grammars, `preview` starts a shell. This
module only reads files and lines and prints; what is printed is decided elsewhere.
-/

namespace TextGrammar.CommandLine

/-- Take a snapshot of what stands at a path; none if nothing there can be looked at. -/
partial def snapshot (path : String) : IO (Option Entry) := do
  try
    let place ← IO.FS.realPath path
    if ← place.isDir then
      let mut members := []
      for entry in ← place.readDir do
        if let some member ← snapshot entry.path.toString then
          members := Keyed.insert entry.fileName member members
      pure (some (.folder members))
    else
      pure (some (.file (String.fromUTF8? (← IO.FS.readBinFile path))))
  catch _ => pure none

/-- Snapshots of what stands at some paths. -/
def snapshots (paths : List String) : IO Files := do
  let entries ← paths.mapM fun path => do pure (path, ← snapshot path)
  pure fun path => (entries.lookup path).join

/-- Print what a tool says and end with its code. -/
def finish (output : Output) : IO UInt32 := do
  IO.print output.text
  pure (UInt32.ofNat output.code)

/-- Run lines as they come in, and give the code to end with. Input that is not text ends the shell,
as its end does. -/
partial def converse (shell : Preview.Shell) : IO UInt32 := do
  let out ← IO.getStdout
  out.putStr Preview.Shell.prompt
  out.flush
  let line ← try (← IO.getStdin).getLine catch _ => pure ""
  if line.isEmpty then pure 0
  else
    let (text, next) := shell.runLine line
    out.putStr text
    match next with
    | .goOn shell => converse shell
    | .stop code => pure (UInt32.ofNat code)

/-- Run the tool that the first word names, on the other words. -/
def runTool : List String → IO UInt32
  | "grammar_linter" :: words => do
    finish (Lint.run (← snapshots (words.take 1)) words)
  | "preview" :: words => do
    match Preview.start (← snapshots words) words with
    | .error output => finish output
    | .ok shell =>
      IO.print shell.greeting
      converse shell
  | _ =>
    finish { text := Lint.usage ++ Preview.usage, code := 1 }

end TextGrammar.CommandLine

/-- The program. -/
def main (arguments : List String) : IO UInt32 :=
  TextGrammar.CommandLine.runTool arguments
