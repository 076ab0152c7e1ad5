import TextGrammar.Lint.Report
import TextGrammar.Loading.Recipe
import TextGrammar.Output

/-! # The linter

The linter takes the path of a file or a folder. Of a folder it loads every grammar, at any depth,
in order of name, and lays them over each other; a file that cannot be loaded is passed over there,
and ends the run when it is given by itself.
-/

namespace TextGrammar.Lint

/-- How to call the linter. -/
def usage : String :=
  lines ["Usage: grammar_linter <grammar_file_or_dir>"]

/-- Load a grammar from what stands at a path, in the format that its name tells. -/
def load (path : String) (entry : Entry) : Except LoadError Grammar := do
  let text ← readText (some entry)
  if FilePath.extension? path = some "json" then Grammar.ofJson text else Grammar.ofRon text

/-- Whether a path names a grammar among other files. -/
def isGrammarPath (path : String) : Bool :=
  FilePath.extension? path == some "ron" || FilePath.extension? path == some "json"

/-- The paths that were loaded, and the grammars laid over each other. -/
structure Loaded where
  paths : List String := []
  grammar : Grammar := {}

mutual

/-- Load what stands at a path in a folder, over what was loaded before. The members of a folder are
loaded in order of name. -/
def loadMember (path : String) : Entry → Loaded → Loaded
  | .folder members, loaded =>
    (Keyed.sort (memberLoads path members)).foldl (fun loaded member => member.2 loaded) loaded
  | .file text, loaded =>
    if isGrammarPath path then
      match load path (.file text) with
      | .ok grammar => ⟨loaded.paths ++ [path], loaded.grammar.merge grammar⟩
      | .error _ => loaded
    else loaded

/-- How to load each member of a folder, by its name. -/
def memberLoads (folder : String) : List (String × Entry) → List (String × (Loaded → Loaded))
  | [] => []
  | (name, entry) :: rest =>
    (name, loadMember (FilePath.join folder name) entry) :: memberLoads folder rest

end

/-- Load the members of a folder. -/
def loadMembers (loaded : Loaded) (folder : String) (members : List (String × Entry)) : Loaded :=
  loadMember folder (.folder members) loaded

/-- A report as the linter prints it. -/
def Report.render (report : Report) : String :=
  "\n=== Grammar Lint Report ===\n\n" ++
  (if report.faults.isEmpty && report.warnings.isEmpty then lines ["All checks passed!"] else "") ++
  lines (report.warnings.map ("WARNING: " ++ ·.message)) ++
  lines (report.faults.map ("ERROR: " ++ ·.message)) ++
  "\nSummary: " ++ toString report.faults.length ++ " errors, " ++
    toString report.warnings.length ++ " warnings\n"

/-- Check what was loaded; the code tells whether there are faults. -/
def conclude (loaded : Loaded) : Output :=
  let report := check loaded.grammar
  { text := lines (loaded.paths.map ("  Loaded: " ++ ·)) ++ report.render
    code := if report.faults.isEmpty then 0 else 1 }

/-- Run the linter. -/
def run (files : Files) : List String → Output
  | [] => { text := usage }
  | path :: _ =>
    if path = "--help" ∨ path = "-h" then { text := usage }
    else
      match files path with
      | none => { code := 1 }
      | some (.folder members) => conclude (loadMembers {} path members)
      | some (.file text) =>
        match load path (.file text) with
        | .ok grammar => conclude { grammar := Grammar.merge {} grammar }
        | .error _ => { code := 1 }

end TextGrammar.Lint
