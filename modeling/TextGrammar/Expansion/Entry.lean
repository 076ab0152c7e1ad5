import TextGrammar.Expansion.Engine

/-! # Expanding rules with a grammar -/

namespace TextGrammar

/-- How a rule is expanded. -/
structure ExpandOptions where
  /-- Resolve escape markers in the finished text. -/
  resolveEscapes : Bool := true
  /-- Show the segments of the rule without expanding them. -/
  preventRecursion : Bool := false
deriving DecidableEq, Repr, Inhabited

/-- The options of expansions inside another: escape markers stay for the outer one. -/
def ExpandOptions.nested : ExpandOptions :=
  { resolveEscapes := false }

namespace Run

/-- Expand a node as the options say, escape markers aside. -/
def expandOnce (node : Node) (preventRecursion : Bool) : Run Outcome :=
  if preventRecursion then previewNode node else expandNode node

/-- Expand a rule. -/
def expandRule (rule : String) (options : ExpandOptions) : Run (Except AmbiguousTag Node) := do
  let outcome ← expandOnce (.root rule) options.preventRecursion
  pure (outcome.result.map fun node => if options.resolveEscapes then node.resolveEscapes else node)

/-- Select a rule for a name, on nobody's behalf. -/
def selectKey (key : String) : Run (Report (Option String)) :=
  Engine.selectRule expandNode key none

/-- Run an action on a caller's behalf, who may undo its push. -/
def activate (action : Action) : Run (Report (Option String)) :=
  Engine.activate expandNode .caller action

end Run

namespace Grammar

/-- Expand a rule with options; the answer comes with the state left behind. -/
def expandWith (grammar : Grammar) (rule : String) (options : ExpandOptions) (rolls : Rolls) :
    Except AmbiguousTag Node × Expansion :=
  (Run.expandRule rule options).run (.start grammar rolls)

/-- Expand a rule as the settings say. -/
def expand (grammar : Grammar) (rule : String) (rolls : Rolls) :
    Except AmbiguousTag Node × Expansion :=
  grammar.expandWith rule { resolveEscapes := grammar.settings.resolveEscapes } rolls

/-- The text of an expanded rule. -/
def flatten (grammar : Grammar) (rule : String) (rolls : Rolls) :
    Except AmbiguousTag String × Expansion :=
  let (result, state) := grammar.expand rule rolls
  (result.map (·.text), state)

/-- Select a rule for a name outside of any expansion. -/
def selectRule (grammar : Grammar) (key : String) (rolls : Rolls) :
    Report (Option String) × Expansion :=
  (Run.selectKey key).run (.start grammar rolls)

end Grammar

end TextGrammar
