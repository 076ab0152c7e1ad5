import TextGrammar.Expansion.State
import TextGrammar.Rule.TagHead

/-! # Expanding nodes

A node is expanded depth first: a tag runs its actions, resolves its symbol, expands the rule found
and applies its modifiers; an action expands what it pushes or calls. All of these expand further
nodes, one level deeper, so each is written against an `Expander` for the next level. `expandNode`
ties the levels together: the room left under the ceiling bounds how many there are.

An ambiguous tag ends everything on the way out, but a node keeps what it had become, a tag still
undoes its pushes, and the room taken is given back.
-/

namespace TextGrammar

/-- What became of a node, and the ambiguous tag that cut its expansion short, if one did. -/
structure Outcome where
  node : Node
  fatal : Option AmbiguousTag := none

/-- The node, unless its expansion was cut short. -/
def Outcome.result (outcome : Outcome) : Except AmbiguousTag Node :=
  match outcome.fatal with
  | some tag => .error tag
  | none => .ok outcome.node

/-- A way to expand a node. -/
abbrev Expander := Node → Run Outcome

/-- The result of a step that expands whole rules of its own, and the problems met on the way. The
problems of an expansion that was cut short are not among them. -/
structure Report (α : Type) where
  result : Except AmbiguousTag α
  problems : List Problem := []

namespace Engine

variable (inner : Expander)

/-- What the children of a node come to. -/
structure Siblings where
  nodes : List Node := []
  errors : List Problem := []
  text : String := ""
  fatal : Option AmbiguousTag := none

/-- Expand siblings from left to right, up to the first that is cut short. -/
def expandEach : List Node → Run Siblings
  | [] => pure {}
  | child :: rest => do
    let outcome ← inner child
    match outcome.fatal with
    | some tag => pure { nodes := outcome.node :: rest, fatal := some tag }
    | none =>
      let others ← expandEach rest
      pure { others with
        nodes := outcome.node :: others.nodes
        errors := outcome.node.errors ++ others.errors
        text := outcome.node.text ++ others.text }

/-- Expand a rule as the children of a node. -/
def expandChildren (node : Node) (rule : String) : Run Outcome := do
  let scanned := Scanned.ofRule rule
  Run.note scanned.problems
  let node := node.adopt rule scanned
  let siblings ← expandEach inner node.children
  let node := { node.addErrors siblings.errors with children := siblings.nodes }
  match siblings.fatal with
  | some tag => pure ⟨node, some tag⟩
  | none => pure ⟨{ node with text := siblings.text }, none⟩

/-- Expand a rule as a tree of its own; escape markers stay for the rule around it. -/
def expandNested (rule : String) : Run (Except AmbiguousTag Node) := do
  let outcome ← inner (.root rule)
  pure outcome.result

/-- Expand the parts of a pushed rule. -/
def expandParts : List String → Run (Report (List String))
  | [] => pure ⟨.ok [], []⟩
  | part :: rest => do
    match ← expandNested inner part with
    | .error tag => pure ⟨.error tag, []⟩
    | .ok node =>
      let others ← expandParts rest
      pure ⟨others.result.map (node.text :: ·), node.errors ++ others.problems⟩

/-- Run an action. Alternatives are expanded before they are pushed, so later selections find
finished text. The answer names the symbol that was pushed onto, if one was. -/
def activate (site : Site) (action : Action) : Run (Report (Option String)) := do
  Run.begin site action
  match action with
  | .push target rule =>
    let parts ← expandParts inner (Text.split ',' rule)
    match parts.result with
    | .error tag => pure ⟨.error tag, parts.problems⟩
    | .ok alternatives =>
      Run.push site target alternatives
      pure ⟨.ok (some target), parts.problems⟩
  | .pop target =>
    let problems ← Run.pop target
    pure ⟨.ok none, problems⟩
  | .call rule =>
    match ← expandNested inner rule with
    | .error tag => pure ⟨.error tag, []⟩
    | .ok node => pure ⟨.ok none, node.errors⟩

/-- Evaluate conditions from the set that a path leads to inward, up to the first text that leads
into no branch, and for at most the given number of steps. The answer is the path reached. -/
def conditionPath (key : String) : Nat → List String → Run (Report (List String))
  | 0, path => pure ⟨.ok path, []⟩
  | steps + 1, path => do
    match (← get).condition? key path with
    | none => pure ⟨.ok path, []⟩
    | some condition =>
      match ← expandNested inner condition with
      | .error tag => pure ⟨.error tag, []⟩
      | .ok node =>
        if (← get).leads key path node.text then
          let deeper ← conditionPath key steps (path ++ [node.text])
          pure ⟨deeper.result, node.errors ++ deeper.problems⟩
        else pure ⟨.ok path, node.errors⟩

/-- Select a rule for a name, evaluating conditions on the way; there is no rule when the set
reached has nothing to offer. -/
def selectRule (key : String) (origin : Option Place) : Run (Report (Option String)) := do
  let path ← conditionPath inner key (← get).limit []
  match path.result with
  | .error tag => pure ⟨.error tag, path.problems⟩
  | .ok branches =>
    let (rule, problems) ← Run.select key origin branches
    pure ⟨.ok rule, path.problems ++ problems⟩

/-- Apply one modifier to the text of a node; an unknown one leaves a placeholder after it. -/
def applyModifier (node : Node) (written : String) : Run Node := do
  let call := ModifierCall.parse written
  match (← get).grammar.modifier? call.name with
  | some modifier => pure { node with text := modifier node.text call.params }
  | none =>
    let problem := Problem.missingModifier call.name
    Run.note [problem]
    pure { node.addErrors [problem] with text := node.text ++ placeholder ("." ++ call.name) }

/-- Apply modifiers from left to right. -/
def applyModifiers (node : Node) : List String → Run Node
  | [] => pure node
  | written :: rest => do
    let node ← applyModifier node written
    applyModifiers node rest

/-- Select a rule for the symbol of a tag, expand it and apply the tag's modifiers. -/
def resolveSymbol (node : Node) (symbol : String) : Run Outcome := do
  let selected ← selectRule inner symbol (some node.place)
  let node := node.addErrors selected.problems
  match selected.result with
  | .error tag => pure ⟨node, some tag⟩
  | .ok rule =>
    let node := { node with symbol := some symbol }
    let outcome ← expandChildren inner node (rule.getD (placeholder symbol))
    match outcome.fatal with
    | some tag => pure ⟨outcome.node, some tag⟩
    | none =>
      let node ← applyModifiers outcome.node outcome.node.modifiers
      pure ⟨node, none⟩

/-- What the actions of a tag head come to: the symbols pushed onto, in order. -/
structure Scopes where
  targets : List String := []
  problems : List Problem := []
  fatal : Option AmbiguousTag := none

/-- Run the actions of a tag head from left to right, up to the first that is cut short. -/
def openScopes : List Action → Run Scopes
  | [] => pure {}
  | action :: rest => do
    let report ← activate inner .tagHead action
    match report.result with
    | .error tag => pure { problems := report.problems, fatal := some tag }
    | .ok target =>
      let others ← openScopes rest
      pure { others with
        targets := target.toList ++ others.targets
        problems := report.problems ++ others.problems }

/-- Undo pushes, in the order they were made. -/
def closeScopes : List String → Run (List Problem)
  | [] => pure []
  | target :: rest => do
    let problems ← Run.release target
    let others ← closeScopes rest
    pure (problems ++ others)

/-- Expand a tag. The pushes of its head are undone at its end, also when it was cut short. -/
def expandTag (node : Node) : Run Outcome :=
  match TagHead.parse node.raw with
  | .error tag => pure ⟨node, some tag⟩
  | .ok head => do
    Run.note head.problems
    let actions := head.preactions.map Action.parse
    let node := { node.addErrors head.problems with
      modifiers := head.modifiers, preactions := actions }
    let scopes ← openScopes inner actions
    let node := node.addErrors scopes.problems
    let outcome ← match scopes.fatal with
      | some tag => pure ⟨node, some tag⟩
      | none => resolveSymbol inner node head.symbol
    let problems ← closeScopes scopes.targets
    pure { outcome with node := { outcome.node.addErrors problems with
      postactions := scopes.targets.map .pop } }

/-- Expand an action in a rule. It leaves no text, and nothing undoes what it pushes. -/
def expandAction (node : Node) : Run Outcome := do
  let action := Action.parse node.raw
  let report ← activate inner .bare action
  let node := node.addErrors report.problems
  match report.result with
  | .error tag => pure ⟨node, some tag⟩
  | .ok _ => pure ⟨{ node with action := some action }, none⟩

/-- Expand a node that has been given room. -/
def expandBody (node : Node) : Run Outcome :=
  match node.kind with
  | .root => expandChildren inner node node.raw
  | .segment .tag => expandTag inner node
  | .segment .action => expandAction inner node
  | .segment .plain => pure ⟨node, none⟩

/-- Expand a node once, within the room there is. A later call does nothing, and plain text needs
no room. -/
def withRoom (body : Expander) (node : Node) : Run Outcome := do
  if node.expanded then pure ⟨node, none⟩
  else
    let node := { node with expanded := true }
    if node.kind = .segment .plain then pure ⟨{ node with text := node.raw }, none⟩
    else
      match ← Run.enter node with
      | some refused => pure ⟨refused, none⟩
      | none =>
        let outcome ← body node
        Run.leave
        pure outcome

/-- Leave a node as it is. -/
def idle : Expander := fun node => pure ⟨node, none⟩

/-- An expander for some levels of depth; what it does below them is given. -/
def expander (below : Expander) : Nat → Expander
  | 0, node => withRoom (expandBody below) node
  | levels + 1, node => withRoom (expandBody fun child => expander below levels child) node

end Engine

/-- Expand a node. There are as many levels as there is room under the ceiling, and the deepest
refuses to go further, so what lies below is never asked. -/
def expandNode : Expander := fun node => do
  let state ← get
  Engine.expander Engine.idle (state.limit - state.depth) node

/-- Give a root its children and show them as they stand, expanding none. -/
def previewBody (node : Node) : Run Outcome := do
  let scanned := Scanned.ofRule node.raw
  Run.note scanned.problems
  let node := node.adopt node.raw scanned
  pure ⟨{ node with text := String.join (node.children.map (·.source)) }, none⟩

/-- Show the children of a root without expanding them. -/
def previewNode : Expander :=
  Engine.withRoom previewBody

end TextGrammar
