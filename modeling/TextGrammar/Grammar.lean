import TextGrammar.English
import TextGrammar.Keyed
import TextGrammar.Settings
import TextGrammar.Symbol
import TextGrammar.Text.Quoted

/-! # Grammars

A grammar holds symbols, modifiers and settings, and a list of subgrammars that supply the symbols
it lacks. Pushes and pops change its own symbols only; a selection may count a use in a subgrammar.
-/

namespace TextGrammar

/-- A grammar; `symbols` and `modifiers` are maps by name. -/
structure Grammar where
  symbols : List (String × Symbol) := []
  modifiers : List (String × Modifier) := []
  subgrammars : List Grammar := []
  settings : Settings := {}

namespace Grammar

/-- The grammar that written rules declare. -/
def ofWritten (rules : WrittenGrammar) (settings : Settings) : Grammar :=
  { symbols := rules.map fun (key, rules) =>
      (key, .declared key (.ofWritten settings.falloff rules))
    settings }

/-- The rules on top of every stack, in written form; an empty stack gives an empty list. -/
def toWritten (grammar : Grammar) : WrittenGrammar :=
  grammar.symbols.map fun (key, symbol) => (key, (symbol.top?.map (·.toWritten)).getD (.many []))

/-- The grammar's own symbol of a name. -/
def symbol? (grammar : Grammar) (key : String) : Option Symbol :=
  grammar.symbols.lookup key

/-- The names of the grammar's own symbols, in order. -/
def symbolNames (grammar : Grammar) : List String :=
  Keyed.keys grammar.symbols

/-- The modifier of a name. -/
def modifier? (grammar : Grammar) (name : String) : Option Modifier :=
  grammar.modifiers.lookup name

/-- Add modifiers, over those with the same names. -/
def addModifiers (grammar : Grammar) (modifiers : List (String × Modifier)) : Grammar :=
  { grammar with modifiers := Keyed.overlay grammar.modifiers modifiers }

/-- Add a subgrammar after those there are. -/
def addSubgrammar (grammar sub : Grammar) : Grammar :=
  { grammar with subgrammars := grammar.subgrammars ++ [sub] }

/-- Lay another grammar over this one; its symbols and modifiers win, the settings stay. -/
def merge (grammar other : Grammar) : Grammar :=
  { grammar with
    symbols := Keyed.overlay grammar.symbols other.symbols
    modifiers := Keyed.overlay grammar.modifiers other.modifiers
    subgrammars := grammar.subgrammars ++ other.subgrammars }

/-- The set that the grammar makes of pushed alternatives. -/
def pushedSet (grammar : Grammar) (alternatives : List String) : RuleSet :=
  .ofAlternatives grammar.settings.falloff alternatives

/-- Push alternatives onto a symbol, which comes into being if the grammar lacks it. -/
def push (grammar : Grammar) (key : String) (alternatives : List String) : Grammar :=
  let set := grammar.pushedSet alternatives
  let symbol := match grammar.symbol? key with
    | some symbol => symbol.push set
    | none => .pushed key set
  { grammar with symbols := Keyed.insert key symbol grammar.symbols }

/-- Pop the grammar's own symbol of a name. -/
def pop (grammar : Grammar) (key : String) : Except Problem (RuleSet × Grammar) :=
  match grammar.symbol? key with
  | none => .error (.noSymbolToPop key)
  | some symbol =>
    match symbol.pop with
    | .error problem => .error problem
    | .ok (set, symbol) =>
      .ok (set, { grammar with symbols := Keyed.insert key symbol grammar.symbols })

/-- The set that a selection of a name would read: the top of the grammar's own symbol, or else of
the first subgrammar's that has one. -/
def ruleSet? (grammar : Grammar) (key : String) : Option RuleSet :=
  match grammar.symbol? key with
  | some symbol => symbol.top?
  | none => (grammar.subgrammars.findSome? (·.symbol? key)).bind Symbol.top?

/-- What a selection comes to, with what it leaves of the grammar and the rolls. -/
structure Selection where
  rule : Option String
  problems : List Problem
  grammar : Grammar
  rolls : Rolls

/-- Select, unlogged, from the first of some grammars that has the symbol. -/
def selectAmong? (key : String) (path : List String) (rolls : Rolls) :
    List Grammar → Option (Symbol.Selection × List Grammar)
  | [] => none
  | sub :: rest =>
    match sub.symbol? key with
    | some symbol =>
      let selection := symbol.selectUnlogged path rolls
      some (selection,
        { sub with symbols := Keyed.insert key selection.symbol sub.symbols } :: rest)
    | none =>
      (selectAmong? key path rolls rest).map fun (selection, rest) => (selection, sub :: rest)

/-- Select a rule for a name, given the texts of the conditions on the way. A name that neither the
grammar nor a subgrammar has stands for its placeholder. -/
def select (grammar : Grammar) (key : String) (origin : Option Place) (path : List String)
    (rolls : Rolls) : Selection :=
  match grammar.symbol? key with
  | some symbol =>
    let selection := symbol.select origin path rolls
    ⟨selection.rule, selection.problems,
      { grammar with symbols := Keyed.insert key selection.symbol grammar.symbols },
      selection.rolls⟩
  | none =>
    match selectAmong? key path rolls grammar.subgrammars with
    | some (selection, subgrammars) =>
      ⟨selection.rule, selection.problems, { grammar with subgrammars }, selection.rolls⟩
    | none => ⟨some (placeholder key), [.missingSymbol key], grammar, rolls⟩

mutual

/-- Drop the symbols that pushes created, and clear the others, in subgrammars too. -/
def clear : Grammar → Grammar
  | ⟨symbols, modifiers, subgrammars, settings⟩ =>
    ⟨(symbols.filter (!·.2.dynamic)).map fun (key, symbol) => (key, symbol.clear), modifiers,
      clearAll subgrammars, settings⟩

/-- Clear every grammar of a list. -/
def clearAll : List Grammar → List Grammar
  | [] => []
  | grammar :: rest => grammar.clear :: clearAll rest

end

/-- The grammar in words, for a reader who debugs it. -/
def describe (grammar : Grammar) : String :=
  "Grammar \x7b symbols: " ++ Text.quotedList grammar.symbolNames ++
  ", modifiers: " ++ Text.quotedList (Keyed.keys grammar.modifiers) ++
  ", subgrammars: " ++ toString grammar.subgrammars.length ++
  ", config: " ++ grammar.settings.describe ++ " \x7d"

end Grammar

end TextGrammar
