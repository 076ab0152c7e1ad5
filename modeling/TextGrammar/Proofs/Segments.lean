import TextGrammar.Proofs.Ceiling
import TextGrammar.Proofs.Places

/-! # A rule by its segments

A rule comes to what its segments come to, one after the other. Up to the places in the logs it does
not matter where the segments stand, so what a rule comes to follows from its segments alone; and
what two lists of segments come to, one after the other, is what their concatenation comes to.
-/

namespace TextGrammar

open Engine Expansion

theorem Expansion.Step.settings {source target : Expansion} {event : Event}
    (step : Step source event target) : target.grammar.settings = source.grammar.settings := by
  cases step with
  | took _ popped => exact Grammar.settings_of_pop popped
  | selected key origin path => exact Grammar.settings_select _ _ _ _ _
  | _ => rfl

theorem Expansion.Path.settings_eq {source target : Expansion} {events : List Event}
    (path : Path Step source events target) :
    target.grammar.settings = source.grammar.settings :=
  path.relate (fun s t => t.grammar.settings = s.grammar.settings) (fun _ => rfl)
    (fun first second => second.trans first) (fun taken => taken.settings)

namespace Engine

/-- The equation of a node, at a state. -/
theorem expandNode_apply (node : Node) (state : Expansion) :
    expandNode node state = withRoom (expandBody expandNode) node state :=
  congrFun (congrFun expandNode_eq node) state

/-- Expand segments one after the other, wherever they stand. -/
def expandSegments (segments : List Segment) : Run Siblings :=
  expandEach expandNode (segments.map (.ofSegment ⟨0, 0⟩ 0))

theorem parallel_expandSegments (place : Place) (segments : List Segment) :
    Parallel Symbol.unplaced Siblings.Same
      (expandEach expandNode (segments.mapIdx (Node.ofSegment place)))
      (expandSegments segments) := by
  have anywhere : segments.map (.ofSegment ⟨0, 0⟩ 0) =
      segments.mapIdx fun _ => Node.ofSegment ⟨0, 0⟩ 0 :=
    (List.mapIdx_eq_iff.mpr fun _ => List.getElem?_map).symm
  rw [expandSegments, anywhere]
  exact parallel_expandEach placeless_expandNode (freshTwins_mapIdx segments fun index segment =>
    ⟨Node.twin_ofSegment _ _ _ _ segment, Node.fresh_ofSegment _ _ _, Node.fresh_ofSegment _ _ _⟩)

/-- Segments, none of them cut short, give a text and problems and lead from state to state. -/
inductive Gives : List Segment → Expansion → String → List Problem → Expansion → Prop
  | nil (state : Expansion) : Gives [] state "" [] state
  | cons {segment : Segment} {rest : List Segment} {state middle after : Expansion}
      {outcome : Outcome} {text : String} {errors : List Problem}
      (first : expandNode (.ofSegment ⟨0, 0⟩ 0 segment) state = (outcome, middle))
      (through : outcome.fatal = none) (others : Gives rest middle text errors after) :
      Gives (segment :: rest) state (outcome.node.text ++ text) (outcome.node.errors ++ errors)
        after

/-- What segments give is what they come to when they are expanded. -/
theorem gives_of_through {segments : List Segment} {state : Expansion}
    (through : (expandSegments segments state).1.fatal = none) :
    Gives segments state (expandSegments segments state).1.text
      (expandSegments segments state).1.errors (expandSegments segments state).2 := by
  induction segments generalizing state with
  | nil => exact .nil state
  | cons segment rest ih =>
    simp only [expandSegments, List.map_cons, expandEach, Run.bind_apply] at through ih ⊢
    generalize first : expandNode (.ofSegment ⟨0, 0⟩ 0 segment) state = child at through ⊢
    cases fatal : child.1.fatal with
    | some tag => simp only [fatal, Run.pure_apply, reduceCtorEq] at through
    | none =>
      simp only [fatal, Run.bind_apply, Run.pure_apply] at through ⊢
      exact .cons first fatal (ih through)

namespace Gives

variable {segments more : List Segment} {state middle after : Expansion} {text late : String}
  {errors lateErrors : List Problem}

theorem run (gives : Gives segments state text errors after) :
    ∃ nodes, expandSegments segments state = (⟨nodes, errors, text, none⟩, after) := by
  induction gives with
  | nil state => exact ⟨[], rfl⟩
  | cons first through _ ih =>
    obtain ⟨nodes, others⟩ := ih
    simp only [expandSegments] at others
    simp only [expandSegments, List.map_cons, expandEach, Run.bind_apply, first, through, others,
      Run.pure_apply]
    exact ⟨_, rfl⟩

theorem append (gives : Gives segments state text errors middle)
    (next : Gives more middle late lateErrors after) :
    Gives (segments ++ more) state (text ++ late) (errors ++ lateErrors) after := by
  induction gives with
  | nil state => rwa [String.empty_append]
  | cons first through _ ih =>
    rw [String.append_assoc, List.append_assoc]
    exact .cons first through (ih next)

theorem split (gives : Gives (segments ++ more) state text errors after) :
    ∃ middle early earlyErrors late lateErrors, Gives segments state early earlyErrors middle ∧
      Gives more middle late lateErrors after ∧ text = early ++ late := by
  induction segments generalizing state text errors with
  | nil => exact ⟨state, "", [], text, errors, .nil state, gives, String.empty_append.symm⟩
  | cons segment rest ih =>
    cases gives with
    | cons first through others =>
      obtain ⟨middle, early, earlyErrors, late, lateErrors, begins, ends, rfl⟩ := ih others
      exact ⟨middle, _, _, late, lateErrors, .cons first through begins, ends,
        (String.append_assoc ..).symm⟩

/-- Plain text is copied, and nothing else happens. -/
theorem plain_iff {raw : String} :
    Gives [⟨.plain, raw⟩] state text errors after ↔ text = raw ∧ errors = [] ∧ after = state := by
  have copied : expandNode (.ofSegment ⟨0, 0⟩ 0 ⟨.plain, raw⟩) state = _ :=
    (expandNode_apply _ _).trans (withRoom_plain _ rfl rfl)
  constructor
  · intro gives
    cases gives with
    | cons first through others =>
      rw [copied] at first
      cases first
      cases others
      exact ⟨String.append_empty, rfl, rfl⟩
  · rintro ⟨rfl, rfl, rfl⟩
    have gives := Gives.cons copied rfl (.nil _)
    rwa [String.append_empty] at gives

/-- Segments lead along a path, and come back to the depth where they began. -/
theorem leads (gives : Gives segments state text errors after) : Leads [] state after := by
  induction gives with
  | nil state => exact .done state
  | @cons segment _ state _ _ _ _ _ first _ _ ih =>
    have begins := plays_expandNode.leads (Node.fresh_ofSegment ⟨0, 0⟩ 0 segment) state
    rw [first] at begins
    exact begins.trans ih

theorem path (gives : Gives segments state text errors after) :
    ∃ events, Path Step state events after := by
  obtain ⟨events, episode⟩ := gives.leads
  exact ⟨events, episode.path⟩

theorem depth_eq (gives : Gives segments state text errors after) : after.depth = state.depth := by
  obtain ⟨_, episode⟩ := gives.leads
  exact episode.depth

theorem limit_eq (gives : Gives segments state text errors after) : after.limit = state.limit := by
  obtain ⟨_, path⟩ := gives.path
  exact path.limit_eq

theorem settings_eq (gives : Gives segments state text errors after) :
    after.grammar.settings = state.grammar.settings := by
  obtain ⟨_, path⟩ := gives.path
  exact path.settings_eq

theorem going (gives : Gives segments state text errors after) :
    after.tripped = false → state.tripped = false := by
  obtain ⟨_, path⟩ := gives.path
  exact path.going

/-- From a state that looks the same, segments give the same. -/
theorem parallel (gives : Gives segments state text errors after) {twin : Expansion}
    (alike : state.Alike Symbol.unplaced twin) :
    ∃ twinAfter, Gives segments twin text errors twinAfter ∧
      after.Alike Symbol.unplaced twinAfter := by
  induction gives generalizing twin with
  | nil state => exact ⟨twin, .nil twin, alike⟩
  | @cons segment _ _ _ _ outcome _ _ first through _ ih =>
    obtain ⟨same, left⟩ := steady_unplaced _ (Node.fresh_ofSegment ⟨0, 0⟩ 0 segment) alike
    rw [first] at same left
    obtain ⟨twinAfter, others, ends⟩ := ih left
    have twinFirst : expandNode (.ofSegment ⟨0, 0⟩ 0 segment) twin =
        (outcome, (expandNode (.ofSegment ⟨0, 0⟩ 0 segment) twin).2) := Prod.ext same.symm rfl
    exact ⟨twinAfter, .cons twinFirst through others, ends⟩

end Gives

section

variable {segment : Segment} (asks : segment.kind ≠ .plain) {state : Expansion}
include asks

/-- A segment that finds room expands inside. -/
theorem expandNode_inside (clear : state.tripped = false) (room : state.depth < state.limit) :
    expandNode (.ofSegment ⟨0, 0⟩ 0 segment) state =
      let inside := expandBody expandNode (Node.ofSegment ⟨0, 0⟩ 0 segment).begun
        (state.inside segment.raw)
      (inside.1, (Run.leave inside.2).2) :=
  (expandNode_apply _ _).trans
    (withRoom_room (expandBody expandNode) rfl (asks_ofSegment asks) clear room)

/-- A segment that takes room and does not hit the ceiling found room. -/
theorem room_of_expandNode {after : Expansion} {outcome : Outcome}
    (ran : expandNode (.ofSegment ⟨0, 0⟩ 0 segment) state = (outcome, after))
    (going : after.tripped = false) : state.tripped = false ∧ state.depth < state.limit := by
  rw [expandNode_apply] at ran
  cases admission (.ofSegment ⟨0, 0⟩ 0 segment) state with
  | done expanded => contradiction
  | plain _ plain => exact (asks_ofSegment asks plain).elim
  | full new _ full =>
    rw [withRoom_full _ new (asks_ofSegment asks) full] at ran
    cases ran
    contradiction
  | room _ _ clear room => exact ⟨clear, room⟩

variable {rest : List Segment} {after : Expansion} {text : String} {errors : List Problem}
  (gives : Gives (segment :: rest) state text errors after) (going : after.tripped = false)
include gives going

theorem Gives.room : state.tripped = false ∧ state.depth < state.limit := by
  cases gives with
  | cons first _ others => exact room_of_expandNode asks first (others.going going)

/-- What segments give that do not hit the ceiling begins inside the first. -/
theorem Gives.inside :
    ∃ outcome ended back late,
      expandBody expandNode (Node.ofSegment ⟨0, 0⟩ 0 segment).begun (state.inside segment.raw) =
        (outcome, ended) ∧ outcome.fatal = none ∧ text = outcome.node.text ++ back ∧
      errors = outcome.node.errors ++ late ∧ Gives rest (Run.leave ended).2 back late after := by
  obtain ⟨clear, room⟩ := Gives.room asks gives going
  cases gives with
  | cons first through others =>
    cases (expandNode_inside asks clear room).symm.trans first
    exact ⟨_, _, _, _, Prod.mk.eta.symm, through, rfl, rfl, others⟩

end

/-- The node of a tag once its head was read and the actions in it ran. -/
def headed (node : Node) (head : TagHead) (problems : List Problem) : Node :=
  { node.addErrors head.problems with
    modifiers := head.modifiers, preactions := head.preactions.map Action.parse }.addErrors problems

/-- What a tag comes to, put together from what its parts come to. -/
theorem expandTag_of_parts {inner : Expander} {node : Node} {head : TagHead} {scopes : Scopes}
    {outcome : Outcome} {problems : List Problem} {state opened resolved closed : Expansion}
    (parsed : TagHead.parse node.raw = .ok head)
    (opens : openScopes inner (head.preactions.map Action.parse)
      (Run.note head.problems state).2 = (scopes, opened))
    (through : scopes.fatal = none)
    (resolves : resolveSymbol inner (headed node head scopes.problems) head.symbol opened =
      (outcome, resolved))
    (closes : closeScopes scopes.targets resolved = (problems, closed)) :
    expandTag inner node state = ({ outcome with node := { outcome.node.addErrors problems with
      postactions := scopes.targets.map .pop } }, closed) := by
  simp only [headed] at resolves
  simp only [expandTag, parsed, Run.bind_apply, opens, through, resolves, closes, Run.pure_apply]

/-- A node that adopted a rule came to what the segments of the rule came to. -/
structure Siblings.MakeUp (node : Node) (rule : String) (outcome : Outcome) (siblings : Siblings) :
    Prop where
  fatal : outcome.fatal = siblings.fatal
  text : siblings.fatal = none → outcome.node.text = siblings.text
  errors : outcome.node.errors =
    node.errors ++ (Scanned.ofRule rule).problems ++ siblings.errors

theorem parallel_expandChildren_segments (node : Node) (rule : String) :
    Parallel Symbol.unplaced (Siblings.MakeUp node rule) (expandChildren expandNode node rule)
      (expandSegments (Scanned.ofRule rule).segments) := by
  intro one other alike
  have noted : (one.record ((Scanned.ofRule rule).problems.map .noted)).Alike Symbol.unplaced
      other :=
    ⟨alike.grammar, alike.rolls, alike.limit, alike.depth, alike.tripped⟩
  obtain ⟨same, left⟩ := parallel_expandSegments node.place (Scanned.ofRule rule).segments noted
  simp only [expandChildren, Run.bind_apply, Run.note_apply]
  change Siblings.Same (expandEach expandNode (node.adopt rule _).children _).1 _ at same
  change (expandEach expandNode (node.adopt rule _).children _).2.Alike _ _ at left
  generalize expandEach expandNode (node.adopt rule _).children _ = siblings at same left ⊢
  have errors : node.errors ++ (Scanned.ofRule rule).problems ++ siblings.1.errors =
      node.errors ++ (Scanned.ofRule rule).problems ++ _ := congrArg _ same.errors
  simp only [same.fatal]
  cases fatal : (expandSegments (Scanned.ofRule rule).segments other).1.fatal with
  | some tag =>
    have cut (through : (expandSegments (Scanned.ofRule rule).segments other).1.fatal = none) :=
      Option.some_ne_none tag (fatal.symm.trans through)
    exact ⟨⟨fatal.symm, fun through => (cut through).elim, errors⟩, left⟩
  | none => exact ⟨⟨fatal.symm, fun _ => same.text, errors⟩, left⟩

end Engine

/-- The text of a node and its problems. -/
def Node.yield (node : Node) : String × List Problem :=
  (node.text, node.errors)

/-- What is seen of a result is seen of a node, if the result is one. -/
theorem exists_ok_of_map {α : Type} {result : Except AmbiguousTag Node} {observe : Node → α}
    {value : α} (seen : result.toOption.map observe = some value) :
    ∃ node, result = .ok node ∧ observe node = value := by
  cases result with
  | error tag => contradiction
  | ok node => exact ⟨node, rfl, Option.some.inj seen⟩

/-- The state in which the segments of a rule are expanded when it is expanded from the start. -/
def Expansion.opened (grammar : Grammar) (rolls : Rolls) : Expansion :=
  { start grammar rolls with depth := 1 }

theorem room_of_untripped {grammar : Grammar} {rule : String} {resolve : Bool} {rolls : Rolls}
    (untripped : (grammar.expandWith rule { resolveEscapes := resolve } rolls).2.tripped = false) :
    0 < grammar.settings.maxDepth := by
  by_contra full
  have refuses : expandNode (.root rule) (start grammar rolls) = _ :=
    (expandNode_apply _ _).trans (withRoom_full _ rfl nofun (.inr (Nat.not_lt.mp full)))
  have tripped : (expandNode (.root rule) (start grammar rolls)).2.tripped = true := by
    rw [refuses]
    rfl
  exact Bool.false_ne_true (untripped.symm.trans tripped)

/-- The text that a root shows. -/
def finished (resolve : Bool) (text : String) : String :=
  if resolve then unescape text else text

section

variable {grammar : Grammar} (room : 0 < grammar.settings.maxDepth)
include room

/-- A rule that is expanded from the start comes to what its segments come to. -/
theorem expandWith_segments (rule : String) (resolve : Bool) (rolls : Rolls) :
    let run := expandSegments (Scanned.ofRule rule).segments (opened grammar rolls)
    let whole := grammar.expandWith rule { resolveEscapes := resolve } rolls
    whole.1.map Node.yield = (match run.1.fatal with
        | some tag => .error tag
        | none => .ok (finished resolve run.1.text,
            (Scanned.ofRule rule).problems ++ run.1.errors)) ∧
      whole.2.Alike Symbol.unplaced (Run.leave run.2).2 := by
  intro run whole
  have opens : expandNode (.root rule) (start grammar rolls) = _ :=
    (expandNode_apply _ _).trans
      (withRoom_room (expandBody expandNode) rfl nofun rfl room)
  have begins : ((start grammar rolls).inside rule).Alike Symbol.unplaced (opened grammar rolls) :=
    ⟨rfl, rfl, rfl, rfl, rfl⟩
  obtain ⟨comes, left⟩ := parallel_expandChildren_segments (Node.root rule).begun rule begins
  generalize ran : expandChildren expandNode (Node.root rule).begun rule
    ((start grammar rolls).inside rule) = done at comes left
  have ends : expandNode (.root rule) (start grammar rolls) = (done.1, (Run.leave done.2).2) :=
    opens.trans (by rw [← ran]; rfl)
  have answers : whole = (done.1.result.map fun node =>
      if resolve then node.resolveEscapes else node, (Run.leave done.2).2) := by
    simp only [whole, Grammar.expandWith, Run.expandRule, Run.expandOnce, StateT.run,
      Bool.false_eq_true, ↓reduceIte, Run.bind_apply, ends, Run.pure_apply]
  rw [answers]
  refine ⟨?_, left.leave⟩
  have fatal : done.1.fatal = run.1.fatal := comes.fatal
  have errors : done.1.node.errors = (Scanned.ofRule rule).problems ++ run.1.errors :=
    comes.errors
  simp only [Outcome.result, fatal]
  cases through : run.1.fatal with
  | some tag => rfl
  | none =>
    have text : done.1.node.text = run.1.text := comes.text through
    cases resolve <;>
      simp only [Except.map, Node.yield, Node.resolveEscapes, finished, errors, text, ↓reduceIte,
        Bool.false_eq_true]

variable {rule : String} {rolls : Rolls}

/-- Where a rule succeeds, its segments give what it yields. -/
theorem gives_of_expandWith {resolve : Bool} {node : Node}
    (succeeds : (grammar.expandWith rule { resolveEscapes := resolve } rolls).1 = .ok node) :
    ∃ text errors ended,
      Gives (Scanned.ofRule rule).segments (opened grammar rolls) text errors ended ∧
      node.yield = (finished resolve text, (Scanned.ofRule rule).problems ++ errors) ∧
      (grammar.expandWith rule { resolveEscapes := resolve } rolls).2.Alike Symbol.unplaced
        (Run.leave ended).2 := by
  obtain ⟨yields, left⟩ := expandWith_segments room rule resolve rolls
  rw [succeeds] at yields
  generalize ran : expandSegments (Scanned.ofRule rule).segments (opened grammar rolls) = run
    at yields left
  cases fatal : run.1.fatal with
  | some tag =>
    simp only [fatal] at yields
    contradiction
  | none =>
    simp only [fatal] at yields
    have gives := gives_of_through (ran ▸ fatal)
    rw [ran] at gives
    exact ⟨_, _, _, gives, Except.ok.inj yields, left⟩

/-- Where its segments give something, a rule succeeds and yields it. -/
theorem expandWith_of_gives (resolve : Bool) {text : String} {errors : List Problem}
    {ended : Expansion}
    (gives : Gives (Scanned.ofRule rule).segments (opened grammar rolls) text errors ended) :
    ∃ node, (grammar.expandWith rule { resolveEscapes := resolve } rolls).1 = .ok node ∧
      node.yield = (finished resolve text, (Scanned.ofRule rule).problems ++ errors) ∧
      (grammar.expandWith rule { resolveEscapes := resolve } rolls).2.Alike Symbol.unplaced
        (Run.leave ended).2 := by
  obtain ⟨nodes, ran⟩ := gives.run
  obtain ⟨yields, left⟩ := expandWith_segments room rule resolve rolls
  rw [ran] at yields left
  cases answer : (grammar.expandWith rule { resolveEscapes := resolve } rolls).1 with
  | error tag =>
    rw [answer] at yields
    contradiction
  | ok node =>
    rw [answer] at yields
    exact ⟨node, rfl, Except.ok.inj yields, left⟩

end

end TextGrammar
