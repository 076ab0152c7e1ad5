import TextGrammar.Proofs.Composition
import TextGrammar.Proofs.Room

/-! # Every expansion ends

The levels of an expander stand for the room there is: each is entered one deeper, and where the
room ends, the ceiling refuses before the deepest level is asked. So the levels do not show: a node
expands by its body with `expandNode` itself for what lies below.

That this recursion ends is said without the levels. What is run comes to its result by finitely
many calls, each answered in turn; `Evaluates` is the tree of these calls, and counts how many
expansions in it are in progress at once.
-/

namespace TextGrammar

open Engine Expansion

/-- A call of an expander and the answer to it. -/
structure Call where
  node : Node
  before : Expansion
  outcome : Outcome
  after : Expansion

/-- An expander answers a call in this way. -/
def Call.AnsweredBy (call : Call) (inner : Expander) : Prop :=
  inner call.node call.before = (call.outcome, call.after)

/-- What is run comes to a result as soon as some calls are answered, whatever the expander answers
to others. -/
def ComesTo {α : Type} (run : Expander → Run α) (state : Expansion) (calls : List Call)
    (result : α × Expansion) : Prop :=
  ∀ inner, (∀ call ∈ calls, call.AnsweredBy inner) → run inner state = result

/-- The calls on which a run rests when nodes expand: all from the depth where it began, to which it
comes back. -/
structure RestsOn {α : Type} (run : Expander → Run α) (state : Expansion) (calls : List Call) :
    Prop where
  fresh : ∀ call ∈ calls, call.node.Fresh
  depths : ∀ call ∈ calls, call.before.depth = state.depth
  limits : ∀ call ∈ calls, call.before.limit = state.limit
  answers : ∀ call ∈ calls, call.AnsweredBy expandNode
  comesTo : ComesTo run state calls (run expandNode state)
  depth : (run expandNode state).2.depth = state.depth
  limit : (run expandNode state).2.limit = state.limit

namespace RestsOn

variable {α β : Type} {run other first : Expander → Run α} {next : Expander → α → Run β}
  {state : Expansion} {calls more : List Call}

/-- Without a call a run comes to the same result with every expander. -/
theorem alone {result : α × Expansion} (same : ∀ inner, run inner state = result)
    (depth : result.2.depth = state.depth) (limit : result.2.limit = state.limit) :
    RestsOn run state [] where
  fresh := List.forall_mem_nil _
  depths := List.forall_mem_nil _
  limits := List.forall_mem_nil _
  answers := List.forall_mem_nil _
  comesTo inner _ := (same inner).trans (same expandNode).symm
  depth := same expandNode ▸ depth
  limit := same expandNode ▸ limit

theorem asked {node : Node} (fresh : node.Fresh) (state : Expansion) :
    RestsOn (fun inner => inner node) state
      [⟨node, state, (expandNode node state).1, (expandNode node state).2⟩] := by
  obtain ⟨events, visit⟩ := plays_expandNode node state fresh
  exact {
    fresh := List.forall_mem_singleton.mpr fresh
    depths := List.forall_mem_singleton.mpr rfl
    limits := List.forall_mem_singleton.mpr rfl
    answers := List.forall_mem_singleton.mpr rfl
    comesTo := fun inner answered => answered _ List.mem_cons_self
    depth := visit.episode.depth
    limit := visit.episode.path.limit_eq }

/-- One run after another rests on the calls of both. -/
theorem bind (begins : RestsOn first state calls)
    (goesOn : RestsOn (fun inner => next inner (first expandNode state).1)
      (first expandNode state).2 more) :
    RestsOn (fun inner => first inner >>= next inner) state (calls ++ more) where
  fresh := List.forall_mem_append.mpr ⟨begins.fresh, goesOn.fresh⟩
  depths := List.forall_mem_append.mpr
    ⟨begins.depths, fun call member => (goesOn.depths call member).trans begins.depth⟩
  limits := List.forall_mem_append.mpr
    ⟨begins.limits, fun call member => (goesOn.limits call member).trans begins.limit⟩
  answers := List.forall_mem_append.mpr ⟨begins.answers, goesOn.answers⟩
  comesTo inner answered := by
    obtain ⟨early, late⟩ := List.forall_mem_append.mp answered
    simp only [Run.bind_apply]
    rw [begins.comesTo inner early]
    exact goesOn.comesTo inner late
  depth := goesOn.depth.trans begins.depth
  limit := goesOn.limit.trans begins.limit

/-- What comes after may make no call of its own. -/
theorem andThen {after : α → Run β} (begins : RestsOn first state calls)
    (keeps : ∀ value later, (after value later).2.depth = later.depth ∧
      (after value later).2.limit = later.limit) :
    RestsOn (fun inner => first inner >>= after) state calls := by
  have kept := keeps (first expandNode state).1 (first expandNode state).2
  have whole := begins.bind (.alone (fun _ => rfl) kept.1 kept.2)
  rwa [List.append_nil] at whole

/-- Only what is run from the state at hand matters. -/
theorem congr (same : ∀ inner, run inner state = other inner state)
    (rests : RestsOn other state calls) : RestsOn run state calls where
  fresh := rests.fresh
  depths := rests.depths
  limits := rests.limits
  answers := rests.answers
  comesTo inner answered :=
    (same inner).trans ((rests.comesTo inner answered).trans (same expandNode).symm)
  depth := same expandNode ▸ rests.depth
  limit := same expandNode ▸ rests.limit

end RestsOn

theorem restsOn_expandNested (rule : String) (state : Expansion) :
    ∃ call, RestsOn (expandNested · rule) state [call] :=
  ⟨_, (RestsOn.asked (Node.fresh_root rule) state).bind (.alone (fun _ => rfl) rfl rfl)⟩

/-- Each turn of the loop over conditions makes one call. -/
theorem restsOn_conditionPath (key : String) (steps : Nat) (path : List String)
    (state : Expansion) :
    ∃ calls, calls.length ≤ steps ∧ RestsOn (conditionPath · key steps path) state calls := by
  induction steps generalizing path state with
  | zero => exact ⟨[], Nat.le_refl 0, .alone (fun _ => rfl) rfl rfl⟩
  | succ steps ih =>
    cases found : state.condition? key path with
    | none =>
      have ends (inner : Expander) := conditionPath_of_none inner steps found
      exact ⟨[], Nat.zero_le _, .alone ends rfl rfl⟩
    | some condition =>
      obtain ⟨call, evaluates⟩ := restsOn_expandNested condition state
      have onward : ∃ calls, calls.length ≤ steps ∧ RestsOn
          (fun inner => follow inner key steps path (expandNested expandNode condition state).1)
          (expandNested expandNode condition state).2 calls := by
        generalize (expandNested expandNode condition state).2 = later
        cases (expandNested expandNode condition state).1 with
        | error tag => exact ⟨[], Nat.zero_le _, .alone (fun _ => rfl) rfl rfl⟩
        | ok node =>
          by_cases leads : later.leads key path node.text = true
          · obtain ⟨calls, few, deeper⟩ := ih (path ++ [node.text]) later
            exact ⟨calls, few, .congr (fun inner => follow_of_leads inner steps leads)
              (deeper.andThen fun _ _ => ⟨rfl, rfl⟩)⟩
          · exact ⟨[], Nat.zero_le _,
              .alone (fun inner => follow_of_astray inner steps leads) rfl rfl⟩
      obtain ⟨calls, few, rest⟩ := onward
      exact ⟨call :: calls, Nat.succ_le_succ few,
        .congr (fun inner => conditionPath_of_some inner steps found) (evaluates.bind rest)⟩

theorem restsOn_selectRule (key : String) (origin : Option Place) (state : Expansion) :
    ∃ calls, calls.length ≤ state.limit ∧ RestsOn (selectRule · key origin) state calls := by
  obtain ⟨calls, few, path⟩ := restsOn_conditionPath key state.limit [] state
  refine ⟨calls, few, .congr (fun inner => selectRule_apply inner key origin state)
    (path.andThen fun report later => ?_)⟩
  simp only [choose]
  cases report.result <;> exact ⟨rfl, rfl⟩

/-- From every state a run rests on finitely many calls. -/
def Rests {α : Type} (run : Expander → Run α) : Prop :=
  ∀ state, ∃ calls, RestsOn run state calls

theorem inherited_rests : Inherited Rests where
  asked node fresh state := ⟨_, .asked fresh state⟩
  pure value state := ⟨[], .alone (fun _ => rfl) rfl rfl⟩
  bind begins goesOn state := by
    obtain ⟨calls, first⟩ := begins state
    obtain ⟨more, rest⟩ := goesOn _ _
    exact ⟨calls ++ more, first.bind rest⟩
  note problems state := ⟨[], .alone (fun _ => rfl) rfl rfl⟩
  begin site action state := ⟨[], .alone (fun _ => rfl) rfl rfl⟩
  push site key alternatives state := ⟨[], .alone (fun _ => rfl) rfl rfl⟩
  takeOff {event key} _ state := by
    refine ⟨[], .alone (fun _ => rfl) ?_ ?_⟩ <;>
      · simp only [Run.takeOff]
        cases state.grammar.pop key <;> rfl
  applyModifier node written state := by
    refine ⟨[], .alone (fun _ => rfl) ?_ ?_⟩ <;>
      · simp only [applyModifier, Run.bind_apply, Run.get_apply]
        cases state.grammar.modifier? (ModifierCall.parse written).name <;> rfl
  selectRule key origin state := by
    obtain ⟨calls, _, rests⟩ := restsOn_selectRule key origin state
    exact ⟨calls, rests⟩

/-- A node is over at once, or rests on calls one deeper. -/
theorem comesTo_withRoom (node : Node) (state : Expansion) :
    (∃ result, ∀ body, withRoom body node state = result) ∨
      state.depth < state.limit ∧ ∃ calls : List Call,
        (∀ call ∈ calls, call.node.Fresh ∧ call.before.depth = state.depth + 1 ∧
          call.before.limit = state.limit ∧ call.AnsweredBy expandNode) ∧
        ComesTo (fun inner => withRoom (expandBody inner) node) state calls
          (withRoom (expandBody expandNode) node state) := by
  cases admission node state with
  | done expanded => exact .inl ⟨_, fun body => withRoom_done body expanded⟩
  | plain new plain => exact .inl ⟨_, fun body => withRoom_plain body new plain⟩
  | full new asks full => exact .inl ⟨_, fun body => withRoom_full body new asks full⟩
  | room new asks going room =>
    obtain ⟨calls, rests⟩ := inherited_rests.expandBody node.begun (state.inside node.raw)
    refine .inr ⟨room, calls, fun call member => ⟨rests.fresh call member,
      rests.depths call member, rests.limits call member, rests.answers call member⟩,
      fun inner answered => ?_⟩
    have same := rests.comesTo inner answered
    simp only [withRoom_room _ new asks going room, Run.bind_apply, same]

/-- A node expands by its body, and whatever lies below expands in the same way. -/
theorem expandNode_eq : expandNode = withRoom (expandBody expandNode) := by
  funext node state
  change expander idle (state.limit - state.depth) node state = _
  rcases comesTo_withRoom node state with ⟨result, same⟩ | ⟨room, calls, asked, comes⟩
  · rw [same]
    cases state.limit - state.depth <;> exact same _
  · -- The calls of the body come one deeper, where one level fewer stands for the same room.
    obtain ⟨below, levels⟩ := Nat.exists_eq_add_of_lt room
    rw [show state.limit - state.depth = below + 1 by omega]
    refine comes (expander idle below) fun call member => ?_
    obtain ⟨_, depth, limit, answer⟩ := asked call member
    change expander idle (call.before.limit - call.before.depth) call.node call.before = _ at answer
    rwa [show call.before.limit - call.before.depth = below by omega] at answer

/-- With as many levels as there is room, it does not matter what lies below them. -/
theorem expander_eq_expandNode (below : Expander) {node : Node} (fresh : node.Fresh)
    (state : Expansion) :
    expander below (state.limit - state.depth) node state = expandNode node state := by
  induction levels : state.limit - state.depth generalizing node state with
  | zero =>
    rw [expandNode_eq]
    rcases comesTo_withRoom node state with ⟨result, same⟩ | ⟨room, _⟩
    · exact (same _).trans (same _).symm
    · omega
  | succ rest ih =>
    rw [expandNode_eq]
    rcases comesTo_withRoom node state with ⟨result, same⟩ | ⟨_, calls, asked, comes⟩
    · exact (same _).trans (same _).symm
    · refine comes (expander below rest) fun call member => ?_
      obtain ⟨freshToo, depth, limit, answer⟩ := asked call member
      exact (ih freshToo call.before (by omega)).trans answer

/-- How an expansion goes, as the tree of the calls below it: a node whose body is not asked is over
at once, and one whose body runs is over when all calls of the body are. The levels count the
expansions in progress at the deepest call. -/
inductive Evaluates : Nat → Call → Prop
  | still {levels : Nat} {call : Call}
      (unasked : ∀ body, withRoom body call.node call.before = (call.outcome, call.after)) :
      Evaluates levels call
  | opened {levels : Nat} {call : Call} (calls : List Call)
      (each : ∀ below ∈ calls, Evaluates levels below)
      (comes : ComesTo (fun inner => withRoom (expandBody inner) call.node) call.before calls
        (call.outcome, call.after)) :
      Evaluates (levels + 1) call

/-- What is evaluated is what every solution of the recursion gives. -/
theorem Evaluates.answeredBy {levels : Nat} {call : Call} (evaluates : Evaluates levels call)
    {inner : Expander} (solves : inner = withRoom (expandBody inner)) : call.AnsweredBy inner := by
  induction evaluates with
  | still unasked =>
    rw [Call.AnsweredBy, solves]
    exact unasked _
  | opened calls each comes ih =>
    rw [Call.AnsweredBy, solves]
    exact comes inner ih

/-- Every expansion is evaluated with as many levels as there is room. -/
theorem evaluates_of_answeredBy {call : Call} (fresh : call.node.Fresh)
    (answered : call.AnsweredBy expandNode) :
    Evaluates (call.before.limit - call.before.depth) call := by
  -- The induction is on the room, of which every call of a body has one less.
  induction levels : call.before.limit - call.before.depth generalizing call with
  | zero =>
    rw [Call.AnsweredBy, expandNode_eq] at answered
    rcases comesTo_withRoom call.node call.before with ⟨result, same⟩ | ⟨room, _⟩
    · exact .still fun body => (same body).trans ((same _).symm.trans answered)
    · omega
  | succ below ih =>
    rw [Call.AnsweredBy, expandNode_eq] at answered
    rcases comesTo_withRoom call.node call.before with ⟨result, same⟩ | ⟨_, calls, asked, comes⟩
    · exact .still fun body => (same body).trans ((same _).symm.trans answered)
    · refine .opened calls (fun inner member => ?_) (answered ▸ comes)
      obtain ⟨freshToo, depth, limit, answer⟩ := asked inner member
      exact ih freshToo answer (by omega)

theorem evaluates_of_restsOn {α : Type} {run : Expander → Run α} {state : Expansion}
    {calls : List Call} (rests : RestsOn run state calls) :
    ∀ call ∈ calls, Evaluates (state.limit - state.depth) call := by
  intro call member
  have evaluates := evaluates_of_answeredBy (rests.fresh call member) (rests.answers call member)
  rwa [rests.limits call member, rests.depths call member] at evaluates

/-- Every request ends, whatever the grammar and the rolls. Nodes expand by the recursion of their
bodies, and a rule expands to a result exactly if a tree of finitely many calls evaluates it, in
which no more expansions are in progress at once than there is room for below the ceiling. So
selections and actions come to their results by finitely many calls that are evaluated in this way,
and of these a selection makes one for each condition, of which it looks at no more than the
ceiling. -/
theorem every_request_ends :
    expandNode = withRoom (expandBody expandNode) ∧ ∀ state : Expansion,
      (∀ rule outcome after,
        Evaluates (state.limit - state.depth) ⟨.root rule, state, outcome, after⟩ ↔
          expandNode (.root rule) state = (outcome, after)) ∧
      (∀ key origin, ∃ calls : List Call, calls.length ≤ state.limit ∧
        (∀ call ∈ calls, Evaluates (state.limit - state.depth) call) ∧
        ComesTo (selectRule · key origin) state calls (selectRule expandNode key origin state)) ∧
      (∀ site action, ∃ calls : List Call,
        (∀ call ∈ calls, Evaluates (state.limit - state.depth) call) ∧
        ComesTo (activate · site action) state calls (activate expandNode site action state)) := by
  refine ⟨expandNode_eq, fun state => ⟨fun rule outcome after => ?_, fun key origin => ?_,
    fun site action => ?_⟩⟩
  · constructor
    · intro evaluates
      exact evaluates.answeredBy expandNode_eq
    · intro expands
      have answered : (Call.mk (.root rule) state outcome after).AnsweredBy expandNode := expands
      exact evaluates_of_answeredBy (Node.fresh_root rule) answered
  · obtain ⟨calls, few, rests⟩ := restsOn_selectRule key origin state
    exact ⟨calls, few, evaluates_of_restsOn rests, rests.comesTo⟩
  · obtain ⟨calls, rests⟩ := inherited_rests.activate site action state
    exact ⟨calls, evaluates_of_restsOn rests, rests.comesTo⟩

end TextGrammar
