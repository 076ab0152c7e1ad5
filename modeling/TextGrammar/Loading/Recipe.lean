import TextGrammar.Format.JsonWriter
import TextGrammar.Format.RonReader
import TextGrammar.Grammar
import TextGrammar.Loading.Files

/-! # Building grammars

A recipe lists where the rules of a grammar come from, later sources over earlier ones, together
with its settings, modifiers and subgrammars. Building stops at the first thing that fails:
settings first, then the sources in order.
-/

namespace TextGrammar

/-- Why a grammar could not be built. -/
inductive LoadError
  | invalidSettings (fault : SettingsFault)
  | unreadable
  | malformedRon
  | malformedJson

/-- Read a grammar's rules from RON. -/
def rulesOfRon (text : String) : Except LoadError WrittenGrammar :=
  match (Ron.read? text).bind Datum.grammar? with
  | some rules => .ok rules
  | none => .error .malformedRon

/-- Read a grammar's rules from JSON. -/
def rulesOfJson (text : String) : Except LoadError WrittenGrammar :=
  match (Json.read? text).bind Datum.grammar? with
  | some rules => .ok rules
  | none => .error .malformedJson

/-- The text of what stands at a path. -/
def readText (entry : Option Entry) : Except LoadError String :=
  match entry.bind Entry.text? with
  | some text => .ok text
  | none => .error .unreadable

/-- Where rules come from. -/
inductive Source
  | rules (rules : WrittenGrammar)
  | ron (text : String)
  | json (text : String)
  | ronFile (path : String)
  /-- Every RON file of a folder, in order of name. -/
  | ronFolder (path : String)

/-- The rules of a file. -/
def rulesOfFile (entry : Option Entry) : Except LoadError WrittenGrammar := do
  rulesOfRon (← readText entry)

/-- The rules of a list of files laid over each other. -/
def overlayFiles (rules : WrittenGrammar) : List Entry → Except LoadError WrittenGrammar
  | [] => .ok rules
  | entry :: rest => do
    overlayFiles (Keyed.overlay rules (← rulesOfFile (some entry))) rest

/-- The members of a folder whose name ends in the extension of RON files, in order of name. -/
def ronMembers (folder : Entry) : List Entry :=
  let named := folder.members.filter fun member => FilePath.extension? member.1 == some "ron"
  (Keyed.sort named).map (·.2)

/-- Lay the rules of a source over others. -/
def Source.overlay (files : Files) (rules : WrittenGrammar) :
    Source → Except LoadError WrittenGrammar
  | .rules more => .ok (Keyed.overlay rules more)
  | .ron text => return Keyed.overlay rules (← rulesOfRon text)
  | .json text => return Keyed.overlay rules (← rulesOfJson text)
  | .ronFile path => return Keyed.overlay rules (← rulesOfFile (files path))
  | .ronFolder path =>
    match files path with
    | some (.folder members) => overlayFiles rules (ronMembers (.folder members))
    | _ => .error .unreadable

/-- Lay the rules of sources over others, in order. -/
def overlaySources (files : Files) (rules : WrittenGrammar) :
    List Source → Except LoadError WrittenGrammar
  | [] => .ok rules
  | source :: rest => do overlaySources files (← source.overlay files rules) rest

/-- Read settings from RON. -/
def settingsOfRon (text : String) : Except LoadError Settings :=
  match Ron.settings? text with
  | some settings => .ok settings
  | none => .error .malformedRon

/-- What a grammar is built from. -/
structure Recipe where
  sources : List Source := []
  settings : Option Settings := none
  /-- A file with settings, which wins over `settings`. -/
  settingsFile : Option String := none
  baseModifiers : Bool := false
  modifiers : List (String × Modifier) := []
  subgrammars : List Grammar := []

/-- The settings of a recipe, checked. -/
def Recipe.chosenSettings (recipe : Recipe) (files : Files) : Except LoadError Settings := do
  let settings ← match recipe.settingsFile with
    | some path => settingsOfRon (← readText (files path))
    | none => pure (recipe.settings.getD {})
  match settings.fault? with
  | some fault => .error (.invalidSettings fault)
  | none => .ok settings

/-- Build a grammar. -/
def Recipe.build (recipe : Recipe) (files : Files) : Except LoadError Grammar := do
  let settings ← recipe.chosenSettings files
  let rules ← overlaySources files [] recipe.sources
  let base := if recipe.baseModifiers then English.modifiers else []
  let grammar := (Grammar.ofWritten rules settings).addModifiers (base ++ recipe.modifiers)
  pure { grammar with subgrammars := recipe.subgrammars }

namespace Grammar

/-- A grammar with default settings, read from RON. -/
def ofRon (text : String) : Except LoadError Grammar :=
  return .ofWritten (← rulesOfRon text) {}

/-- A grammar with default settings, read from JSON. -/
def ofJson (text : String) : Except LoadError Grammar :=
  return .ofWritten (← rulesOfJson text) {}

/-- A grammar with default settings, read from a RON file. -/
def ofRonFile (entry : Option Entry) : Except LoadError Grammar := do
  ofRon (← readText entry)

/-- The rules on top of every stack, in JSON. -/
def toJson (grammar : Grammar) : String :=
  Json.write grammar.toWritten

end Grammar

end TextGrammar
