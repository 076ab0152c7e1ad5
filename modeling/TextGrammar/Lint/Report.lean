import TextGrammar.Grammar
import TextGrammar.Lint.References

/-! # Linting a grammar

A grammar is checked without expanding it: every symbol needs an alternative that does not refer
back to the symbol, texts must be well formed, and what they refer to must be declared or pushed
somewhere. Modifiers are only compared with the English ones, so an unknown one is a warning.
-/

namespace TextGrammar.Lint

/-- What is wrong with a grammar. -/
inductive Fault
  | endless (symbol : String)
  | flawed (symbol : String) (flaw : Flaw)
  | dangling (symbol target : String)
deriving DecidableEq, Repr

/-- The wording of a fault. -/
def Fault.message : Fault → String
  | .endless symbol =>
    s!"Symbol '{symbol}' has no non-recursive alternative (infinite recursion)"
  | .flawed symbol flaw => s!"Symbol '{symbol}': " ++ flaw.message
  | .dangling symbol target =>
    s!"Symbol '{symbol}' references non-existent symbol '{target}'"

/-- A modifier that is not one of the English ones. -/
structure UnknownModifier where
  symbol : String
  name : String
deriving DecidableEq, Repr

/-- The wording of the warning. -/
def UnknownModifier.message (unknown : UnknownModifier) : String :=
  s!"Symbol '{unknown.symbol}' uses modifier '{unknown.name}' which is not a built-in"

/-- What a check found. -/
structure Report where
  faults : List Fault := []
  warnings : List UnknownModifier := []

mutual

/-- The conditions of a set and of its branches, outermost first. -/
def conditions : RuleSet → List String
  | .plain _ => []
  | .conditional condition branches _ => condition :: conditionsOfBranches branches

/-- The conditions of branches. -/
def conditionsOfBranches : List (String × RuleSet) → List String
  | [] => []
  | (_, set) :: rest => conditions set ++ conditionsOfBranches rest

end

mutual

/-- The alternatives of a set and of its branches, outermost first. -/
def alternatives : RuleSet → List String
  | .plain pool => pool.alternatives
  | .conditional _ branches pool => pool.alternatives ++ alternativesOfBranches branches

/-- The alternatives of branches. -/
def alternativesOfBranches : List (String × RuleSet) → List String
  | [] => []
  | (_, set) :: rest => alternatives set ++ alternativesOfBranches rest

end

/-- What the conditions and alternatives of a symbol's declared set refer to. -/
def referencesOf (symbol : Symbol) : References :=
  .concat ((conditions symbol.base ++ alternatives symbol.base).map .ofRule)

/-- Whether a symbol has alternatives and each of them refers back to it. -/
def isEndless (name : String) (symbol : Symbol) : Bool :=
  let texts := alternatives symbol.base
  !texts.isEmpty && texts.all fun text => (References.ofRule text).symbols.contains name

/-- Names in ascending order, each once. -/
def distinct (names : List String) : List String :=
  Keyed.keys (Keyed.ofEntries (names.map (·, ())))

/-- The symbols that are pushed somewhere in a grammar; they count as declared everywhere. -/
def pushedSymbols (grammar : Grammar) : List String :=
  grammar.symbols.flatMap fun (_, symbol) => (referencesOf symbol).pushed

/-- The faults of what a symbol refers to. -/
def faultsOf (grammar : Grammar) (pushed : List String) (name : String)
    (references : References) : List Fault :=
  references.flaws.map (.flawed name) ++
  ((distinct references.symbols).filter fun target =>
    !Keyed.has target grammar.symbols && !pushed.contains target).map (.dangling name)

/-- The modifiers that a symbol uses and English lacks. -/
def unknownModifiers (name : String) (references : References) : List UnknownModifier :=
  ((distinct references.modifiers).filter (!Keyed.has · English.modifiers)).map (⟨name, ·⟩)

/-- Check a grammar: first every symbol for an end, then every symbol's references. -/
def check (grammar : Grammar) : Report :=
  let pushed := pushedSymbols grammar
  let endless := grammar.symbols.filter fun (name, symbol) => isEndless name symbol
  { faults := endless.map (.endless ·.1) ++
      grammar.symbols.flatMap fun (name, symbol) =>
        faultsOf grammar pushed name (referencesOf symbol)
    warnings := grammar.symbols.flatMap fun (name, symbol) =>
      unknownModifiers name (referencesOf symbol) }

end TextGrammar.Lint
