import TextGrammar.Expansion.Node
import TextGrammar.Grammar

/-! # The state of an expansion

Everything an expansion changes is in its state: the grammar, the rolls, the depth of expansions in
progress, and a mark that is set once the ceiling was hit. The steps below are the only ones that
change it. Each leaves what it did in a journal, which nothing reads back.
-/

namespace TextGrammar

/-- Where an action was run from: the head of a tag, the rule itself, or a caller outside. -/
inductive Site
  | tagHead
  | bare
  | caller
deriving DecidableEq, Repr, Inhabited

/-- What happened in an expansion. -/
inductive Event
  /-- An expansion began; the depth counts it. -/
  | entered (raw : String) (depth : Nat)
  /-- The expansion in progress at this depth ended. -/
  | left (depth : Nat)
  /-- A node was refused for want of room; it is given as its parent gets it. -/
  | refused (node : Node) (depth : Nat)
  /-- A problem was met. -/
  | noted (problem : Problem)
  /-- An action began. -/
  | activated (site : Site) (action : Action)
  /-- A set was pushed. -/
  | pushed (site : Site) (key : String) (set : RuleSet)
  /-- A pop action took a set off, or found none. -/
  | popped (key : String) (set : Option RuleSet)
  /-- The end of a tag took a set off, or found none. -/
  | released (key : String) (set : Option RuleSet)
  /-- A rule was selected. -/
  | selected (key : String) (rule : Option String)

/-- The state shared by all nodes of an expansion. -/
structure Expansion where
  grammar : Grammar
  rolls : Rolls
  /-- The ceiling on expansions in progress. -/
  limit : Nat
  depth : Nat := 0
  /-- Set once the ceiling was hit; every later node is refused. -/
  tripped : Bool := false
  /-- What happened, latest first. -/
  journal : List Event := []

/-- A computation on the state of an expansion. -/
abbrev Run := StateM Expansion

namespace Expansion

/-- The state before anything was expanded. -/
def start (grammar : Grammar) (rolls : Rolls) : Expansion :=
  { grammar, rolls, limit := grammar.settings.maxDepth }

/-- Write events into the journal, in order. -/
def record (state : Expansion) (events : List Event) : Expansion :=
  { state with journal := events.reverse ++ state.journal }

/-- What happened, in order. -/
def events (state : Expansion) : List Event :=
  state.journal.reverse

/-- The set that a conditional selection stands at after some branches. -/
def setAt? (state : Expansion) (key : String) (path : List String) : Option RuleSet :=
  (state.grammar.ruleSet? key).bind (·.descend? path)

/-- The condition that a selection has to evaluate next, if there is one. -/
def condition? (state : Expansion) (key : String) (path : List String) : Option String :=
  (state.setAt? key path).bind (·.condition?)

/-- Whether the text of a condition leads into a branch. -/
def leads (state : Expansion) (key : String) (path : List String) (value : String) : Bool :=
  ((state.setAt? key path).bind (·.branch? value)).isSome

end Expansion

namespace Run

/-- Note problems. -/
def note (problems : List Problem) : Run Unit :=
  modify (·.record (problems.map .noted))

/-- Note that an action begins. -/
def begin (site : Site) (action : Action) : Run Unit :=
  modify (·.record [.activated site action])

/-- Ask for room to expand a node. Once refused anywhere, it is refused everywhere; the answer is
then the node as it is left. -/
def enter (node : Node) : Run (Option Node) := fun state =>
  if state.tripped || state.limit ≤ state.depth then
    let refused := node.refused state.limit
    (some refused, { state with tripped := true }.record
      [.refused refused state.depth, .noted (.recursionLimit state.limit node.raw)])
  else
    (none, { state with depth := state.depth + 1 }.record [.entered node.raw (state.depth + 1)])

/-- Give back the room of one expansion. -/
def leave : Run Unit :=
  modify fun state => { state with depth := state.depth - 1 }.record [.left state.depth]

/-- Push alternatives onto a symbol. -/
def push (site : Site) (key : String) (alternatives : List String) : Run Unit :=
  modify fun state =>
    { state with grammar := state.grammar.push key alternatives }.record
      [.pushed site key (state.grammar.pushedSet alternatives)]

/-- Take a set off a symbol, and say whether a pop action or the end of a tag did it. -/
def takeOff (event : Option RuleSet → Event) (key : String) : Run (List Problem) := fun state =>
  match state.grammar.pop key with
  | .ok (set, grammar) => ([], { state with grammar }.record [event (some set)])
  | .error problem => ([problem], state.record [event none, .noted problem])

/-- Pop a symbol. -/
def pop (key : String) : Run (List Problem) :=
  takeOff (.popped key) key

/-- Undo a push at the end of the tag that made it. -/
def release (key : String) : Run (List Problem) :=
  takeOff (.released key) key

/-- Select a rule, with the conditions on the way already evaluated. -/
def select (key : String) (origin : Option Place) (path : List String) :
    Run (Option String × List Problem) := fun state =>
  let selection := state.grammar.select key origin path state.rolls
  ((selection.rule, selection.problems),
    { state with grammar := selection.grammar, rolls := selection.rolls }.record
      (.selected key selection.rule :: selection.problems.map .noted))

end Run

end TextGrammar
