import TextGrammar.Text.Split

/-! # Actions

The body of an action `[…]` pushes alternatives onto a symbol (`target:a,b`), pops the symbol
(`target:POP`), or expands its text for the side effects (`text`).
-/

namespace TextGrammar

/-- What an action does. A pushed rule holds its alternatives separated by commas. -/
inductive Action
  | push (target rule : String)
  | pop (target : String)
  | call (rule : String)
deriving DecidableEq, Repr, Inhabited

/-- Read the body of an action. Only the first colon counts. -/
def Action.parse (raw : String) : Action :=
  match Text.cut? ':' raw with
  | none => .call raw
  | some (target, rule) => if rule = "POP" then .pop target else .push target rule

/-- The symbol acted on; for a call, the text to expand. -/
def Action.target : Action → String
  | .push target _ => target
  | .pop target => target
  | .call rule => rule

/-- The action as written between its brackets. -/
def Action.text : Action → String
  | .push target rule => target ++ ":" ++ rule
  | .pop target => target ++ ":POP"
  | .call rule => rule

end TextGrammar
