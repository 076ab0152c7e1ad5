import TextGrammar.Proofs.Episodes

/-! # The engine by cases

A node is left alone, copied, refused, or given room for its body; the loop over conditions ends,
or evaluates a condition and then goes on or astray. Each case has its equation, so what is proved
of the engine splits into these cases and opens no definition.
-/

namespace TextGrammar

open Engine

/-- The node as it goes into its expansion. -/
def Node.begun (node : Node) : Node :=
  { node with expanded := true }

/-- The state in which the body of a node runs. -/
def Expansion.inside (state : Expansion) (raw : String) : Expansion :=
  { state with depth := state.depth + 1 }.record [.entered raw (state.depth + 1)]

/-- The state after a node was refused. -/
def Expansion.refusing (state : Expansion) (node : Node) : Expansion :=
  { state with tripped := true }.record
    [.refused (node.refused state.limit) state.depth, .noted (.recursionLimit state.limit node.raw)]

theorem asks_root (rule : String) : (Node.root rule).kind ≠ .segment .plain :=
  NodeKind.noConfusion

theorem asks_ofSegment {parent : Place} {index : Nat} {segment : Segment}
    (asks : segment.kind ≠ .plain) :
    (Node.ofSegment parent index segment).kind ≠ .segment .plain :=
  fun plain => asks (NodeKind.segment.inj plain)

/-- The ways to treat a node: leave it alone, copy its text, refuse it, or run its body. -/
inductive Admission (node : Node) (state : Expansion) : Prop
  | done (expanded : node.expanded = true)
  | plain (new : node.expanded = false) (plain : node.kind = .segment .plain)
  | full (new : node.expanded = false) (asks : node.kind ≠ .segment .plain)
      (full : state.tripped = true ∨ state.limit ≤ state.depth)
  | room (new : node.expanded = false) (asks : node.kind ≠ .segment .plain)
      (going : state.tripped = false) (room : state.depth < state.limit)

theorem admission (node : Node) (state : Expansion) : Admission node state := by
  cases new : node.expanded with
  | true => exact .done new
  | false =>
    by_cases plain : node.kind = .segment .plain
    · exact .plain new plain
    cases going : state.tripped with
    | true => exact .full new plain (.inl going)
    | false =>
      rcases Nat.lt_or_ge state.depth state.limit with room | full
      · exact .room new plain going room
      · exact .full new plain (.inr full)

namespace Engine

section

variable (body : Expander) {node : Node} {state : Expansion}

theorem withRoom_done (expanded : node.expanded = true) :
    withRoom body node state = (⟨node, none⟩, state) := by
  simp only [withRoom, expanded, ↓reduceIte, Run.pure_apply]

theorem withRoom_plain (new : node.expanded = false) (plain : node.kind = .segment .plain) :
    withRoom body node state = (⟨{ node.begun with text := node.raw }, none⟩, state) := by
  simp only [withRoom, new, plain, ↓reduceIte, Bool.false_eq_true, Run.pure_apply, Node.begun]

theorem withRoom_full (new : node.expanded = false) (asks : node.kind ≠ .segment .plain)
    (full : state.tripped = true ∨ state.limit ≤ state.depth) :
    withRoom body node state =
      (⟨node.begun.refused state.limit, none⟩, state.refusing node.begun) := by
  have refuses : (state.tripped || state.limit ≤ state.depth) = true := by
    simpa only [Bool.or_eq_true, decide_eq_true_eq] using full
  simp only [withRoom, new, asks, ↓reduceIte, Bool.false_eq_true, Run.bind_apply, Run.enter,
    refuses]
  rfl

theorem withRoom_room (new : node.expanded = false) (asks : node.kind ≠ .segment .plain)
    (going : state.tripped = false) (room : state.depth < state.limit) :
    withRoom body node state =
      (body node.begun >>= fun outcome => do Run.leave; pure outcome) (state.inside node.raw) := by
  have admits : (state.tripped || state.limit ≤ state.depth) = false := by
    simpa only [going, Bool.false_or, decide_eq_false_iff_not, Nat.not_le] using room
  simp only [withRoom, new, asks, ↓reduceIte, Bool.false_eq_true, Run.bind_apply, Run.enter, admits]
  rfl

end

variable (inner : Expander) (key : String) (steps : Nat) (path : List String)

/-- The loop over conditions, from where one was expanded. -/
def follow : Except AmbiguousTag Node → Run (Report (List String))
  | .error tag => pure ⟨.error tag, []⟩
  | .ok node => do
    if (← get).leads key path node.text then
      let deeper ← conditionPath inner key steps (path ++ [node.text])
      pure ⟨deeper.result, node.errors ++ deeper.problems⟩
    else pure ⟨.ok path, node.errors⟩

variable {key path} {state : Expansion}

theorem conditionPath_of_none (ends : state.condition? key path = none) :
    conditionPath inner key (steps + 1) path state = (⟨.ok path, []⟩, state) := by
  simp only [conditionPath, Run.bind_apply, Run.get_apply, ends, Run.pure_apply]

theorem conditionPath_of_some {condition : String}
    (goesOn : state.condition? key path = some condition) :
    conditionPath inner key (steps + 1) path state =
      (expandNested inner condition >>= follow inner key steps path) state := by
  simp only [conditionPath, Run.bind_apply, Run.get_apply, goesOn]
  rfl

theorem follow_of_leads {node : Node} (leads : state.leads key path node.text = true) :
    follow inner key steps path (.ok node) state =
      (conditionPath inner key steps (path ++ [node.text]) >>= fun deeper =>
        pure ⟨deeper.result, node.errors ++ deeper.problems⟩) state := by
  simp only [follow, Run.bind_apply, Run.get_apply, leads, ↓reduceIte]

theorem follow_of_astray {node : Node} (astray : state.leads key path node.text ≠ true) :
    follow inner key steps path (.ok node) state = (⟨.ok path, node.errors⟩, state) := by
  simp only [follow, Run.bind_apply, Run.get_apply, astray, ↓reduceIte, Run.pure_apply,
    Bool.false_eq_true]

/-- A selection, from where its conditions led. -/
def choose (key : String) (origin : Option Place) (path : Report (List String)) :
    Run (Report (Option String)) :=
  match path.result with
  | .error tag => pure ⟨.error tag, path.problems⟩
  | .ok branches => do
    let (rule, problems) ← Run.select key origin branches
    pure ⟨.ok rule, path.problems ++ problems⟩

theorem selectRule_apply (key : String) (origin : Option Place) (state : Expansion) :
    selectRule inner key origin state =
      (conditionPath inner key state.limit [] >>= choose key origin) state := rfl

end Engine

end TextGrammar
