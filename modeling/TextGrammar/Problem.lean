/-! # Problems met while a rule is read or expanded

A `Problem` never stops an expansion. It is recorded on the node that met it and copied into every
ancestor, and wherever a placeholder makes sense the output shows one. An `AmbiguousTag` is the one
thing that does stop an expansion.
-/

namespace TextGrammar

/-- A recoverable problem, recorded where it was met. -/
inductive Problem
  | unclosedTag
  | unclosedBracket
  | strayBracket
  | emptyTag (position : Nat)
  | emptyAction (position : Nat)
  | missingSymbol (key : String)
  | missingModifier (name : String)
  | emptyRuleStack (key : String)
  | nothingToPop (key : String)
  | noSymbolToPop (key : String)
  | noDefaultRules (key : String)
  | recursionLimit (limit : Nat) (raw : String)
deriving DecidableEq, Repr, Inhabited

/-- The wording shown to the author of a grammar; positions count UTF-8 bytes. -/
def Problem.message : Problem → String
  | .unclosedTag => "unclosed tag"
  | .unclosedBracket => "too many '['"
  | .strayBracket => "too many ']'"
  | .emptyTag position => s!"{position}: empty tag"
  | .emptyAction position => s!"{position}: empty action"
  | .missingSymbol key => s!"no symbol for '{key}'"
  | .missingModifier name => s!"missing modifier '{name}'"
  | .emptyRuleStack key => s!"the rule stack for '{key}' is empty, too many pops?"
  | .nothingToPop key => s!"can't pop '{key}': its rule stack is already empty"
  | .noSymbolToPop key => s!"can't pop: no symbol for '{key}'"
  | .noDefaultRules key => s!"no default rules defined for '{key}'"
  | .recursionLimit limit raw =>
    s!"recursion limit of {limit} exceeded while expanding '{raw}'"

/-- A tag head with more than one plain section: nothing tells which one names the symbol. -/
structure AmbiguousTag where
  raw : String
deriving DecidableEq, Repr, Inhabited

/-- The wording of the one problem that ends an expansion. -/
def AmbiguousTag.message (tag : AmbiguousTag) : String :=
  s!"multiple main sections in tag '{tag.raw}'"

end TextGrammar
