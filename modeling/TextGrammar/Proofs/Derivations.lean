import TextGrammar.Proofs.Leaves
import TextGrammar.Proofs.ScopedPushes

/-! # Trees are derivations

A tree that is finished accounts for itself. Every node in it was expanded or refused; one that
has children has those that its child rule scans to, each in its place, and its text is put
together from theirs. Nothing needs to be known of the run that built the tree, except for the
ceiling and the modifiers, and these do not change during a run.
-/

namespace TextGrammar

open Engine Expansion

/-- What one modifier makes of a text; an unknown one leaves a placeholder after it. -/
def Grammar.modified (grammar : Grammar) (text written : String) : String :=
  let call := ModifierCall.parse written
  match grammar.modifier? call.name with
  | some modifier => modifier text call.params
  | none => text ++ placeholder ("." ++ call.name)

namespace Node

/-- What a node is before anything comes of it: what it stands for, and where. -/
structure Stem where
  kind : NodeKind
  raw : String
  place : Place
  parent : Option Place

/-- What a node was before anything came of it. -/
def stem (node : Node) : Stem :=
  ⟨node.kind, node.raw, node.place, node.parent⟩

/-- Nodes are the segments of a rule in order, one level below a place, numbered from zero, and
point back at it. -/
def SegmentsOf (rule : String) (place : Place) (nodes : List Node) : Prop :=
  nodes.map stem = (Scanned.ofRule rule).segments.mapIdx fun index segment =>
    ⟨.segment segment.kind, segment.raw, ⟨place.depth + 1, index⟩, some place⟩

/-- The texts of nodes, joined. -/
def joined (nodes : List Node) : String :=
  String.join (nodes.map (·.text))

/-- What is in a node follows from what it stands for and from its children, under the ceiling and
with the modifiers of the state in which the tree was begun. -/
inductive Derived (start : Expansion) (node : Node) : Prop
  | refused (asks : node.kind ≠ .segment .plain) (children : node.children = [])
      (text : node.text = placeholder node.raw)
      (errors : node.errors = [.recursionLimit start.limit node.raw])
  | plain (kind : node.kind = .segment .plain) (children : node.children = [])
      (text : node.text = node.raw)
  | root (kind : node.kind = .root) (childRule : node.childRule = some node.raw)
      (children : SegmentsOf node.raw node.place node.children)
      (text : node.text = joined node.children)
  | tag {head : TagHead} {rule : String} (kind : node.kind = .segment .tag)
      (parsed : TagHead.parse node.raw = .ok head) (symbol : node.symbol = some head.symbol)
      (modifiers : node.modifiers = head.modifiers)
      (preactions : node.preactions = head.preactions.map Action.parse)
      (postactions : node.postactions = (node.preactions.filterMap Action.pushed?).map .pop)
      (childRule : node.childRule = some rule)
      (children : SegmentsOf rule node.place node.children)
      (text : node.text = node.modifiers.foldl start.grammar.modified (joined node.children))
  | action (kind : node.kind = .segment .action)
      (action : node.action = some (Action.parse node.raw)) (children : node.children = [])
      (text : node.text = "")

/-- Every node of a tree was expanded and accounts for itself. -/
def Derivation (start : Expansion) (tree : Node) : Prop :=
  ∀ node ∈ tree.preorder, node.expanded = true ∧ node.Derived start

theorem Derivation.intro {start : Expansion} {tree : Node} (expanded : tree.expanded = true)
    (derived : tree.Derived start) (children : ∀ child ∈ tree.children, child.Derivation start) :
    tree.Derivation start := by
  intro node member
  rw [preorder_eq] at member
  rcases List.mem_cons.mp member with rfl | below
  · exact ⟨expanded, derived⟩
  · obtain ⟨child, known, inside⟩ := mem_preorderAll.mp below
    exact children child known node inside

/-- A node that nothing came of yet. -/
structure Blank (node : Node) : Prop where
  new : node.expanded = false
  fresh : node.Fresh
  text : node.text = ""

theorem blank_root (rule : String) : (root rule).Blank :=
  ⟨rfl, fresh_root rule, rfl⟩

theorem blank_adopt (node : Node) (rule : String) :
    ∀ child ∈ (node.adopt rule (Scanned.ofRule rule)).children, child.Blank := by
  intro child member
  obtain ⟨index, bound, rfl⟩ := List.mem_mapIdx.mp member
  exact ⟨rfl, fresh_ofSegment _ _ _, rfl⟩

theorem segmentsOf_adopt (node : Node) (rule : String) :
    SegmentsOf rule node.place (node.adopt rule (Scanned.ofRule rule)).children := by
  apply List.ext_getElem?
  intro index
  simp only [adopt, List.getElem?_map, List.getElem?_mapIdx, Option.map_map]
  rfl

end Node

namespace Expansion

/-- The ceiling and the modifiers are those of the start. -/
structure Governs (start state : Expansion) : Prop where
  limit : state.limit = start.limit
  modifiers : state.grammar.modifiers = start.grammar.modifiers

theorem Step.modifiers {source target : Expansion} {event : Event}
    (step : Step source event target) : target.grammar.modifiers = source.grammar.modifiers := by
  cases step with
  | took _ popped => exact Grammar.modifiers_of_pop popped
  | selected key origin path => exact Grammar.modifiers_select _ _ _ _ _
  | _ => rfl

variable {start source target : Expansion}

/-- No step changes the ceiling or the modifiers. -/
theorem Path.governs {events : List Event} (path : Path Step source events target)
    (governs : start.Governs source) : start.Governs target := by
  have modifiers : target.grammar.modifiers = source.grammar.modifiers :=
    path.relate (fun s t => t.grammar.modifiers = s.grammar.modifiers) (fun _ => rfl)
      (fun first second => second.trans first) (fun taken => taken.modifiers)
  exact ⟨path.limit_eq.trans governs.limit, modifiers.trans governs.modifiers⟩

end Expansion

theorem Run.Walks.governs {α : Type} {run : Run α} (walks : run.Walks) {start state : Expansion}
    (governs : start.Governs state) : start.Governs (run state).2 := by
  obtain ⟨_, path⟩ := walks state
  exact path.governs governs

namespace Engine

/-- An expander of derivations: it goes in episodes, and a node that it lets through keeps its stem
and stands on top of a derivation. -/
structure Derives (start : Expansion) (inner : Expander) : Prop where
  plays : Plays inner
  derives {node : Node} {state : Expansion} (blank : node.Blank) (governs : start.Governs state)
    (through : (inner node state).1.fatal = none) :
    (inner node state).1.node.stem = node.stem ∧ (inner node state).1.node.Derivation start

/-- Children from a rule for a node at a place, each on top of a derivation. -/
structure Offspring (start : Expansion) (rule : String) (place : Place) (children : List Node) :
    Prop where
  segments : Node.SegmentsOf rule place children
  derivations : ∀ child ∈ children, child.Derivation start

section

variable {start : Expansion} {inner : Expander} (derives : Derives start inner)
include derives

theorem derivations_expandEach {nodes : List Node} (blank : ∀ node ∈ nodes, node.Blank)
    {state : Expansion} (governs : start.Governs state)
    (through : (expandEach inner nodes state).1.fatal = none) :
    let siblings := (expandEach inner nodes state).1
    siblings.nodes.map Node.stem = nodes.map Node.stem ∧
      siblings.text = Node.joined siblings.nodes ∧
      ∀ node ∈ siblings.nodes, node.Derivation start := by
  induction nodes generalizing state with
  | nil => exact ⟨rfl, rfl, List.forall_mem_nil _⟩
  | cons child rest ih =>
    obtain ⟨childBlank, restBlank⟩ := List.forall_mem_cons.mp blank
    have first := derives.derives childBlank governs
    obtain ⟨_, episode⟩ := derives.plays.leads childBlank.fresh state
    have governed := episode.path.governs governs
    simp only [expandEach, Run.bind_apply] at through ⊢
    generalize inner child state = outcome at first governed through ⊢
    cases fatal : outcome.1.fatal with
    | some tag =>
      simp only [fatal] at through
      contradiction
    | none =>
      simp only [fatal, Run.bind_apply, Run.pure_apply] at through ⊢
      obtain ⟨stem, derivation⟩ := first fatal
      obtain ⟨stems, text, derivations⟩ := ih restBlank governed through
      refine ⟨?_, ?_, List.forall_mem_cons.mpr ⟨derivation, derivations⟩⟩
      · rw [List.map_cons, List.map_cons, stem, stems]
      · rw [Node.joined, List.map_cons, String.join_cons, ← Node.joined, text]

theorem offspring_expandChildren (node : Node) (rule : String) {state : Expansion}
    (governs : start.Governs state)
    (through : (expandChildren inner node rule state).1.fatal = none) :
    ∃ children errors, Offspring start rule node.place children ∧
      (expandChildren inner node rule state).1.node = { node with
        childRule := some rule, children, text := Node.joined children, errors } := by
  have noted : start.Governs (Run.note (Scanned.ofRule rule).problems state).2 :=
    ⟨governs.limit, governs.modifiers⟩
  have each := derivations_expandEach derives (Node.blank_adopt node rule) noted
  have segments := Node.segmentsOf_adopt node rule
  simp only [expandChildren, Run.bind_apply] at through ⊢
  generalize expandEach inner _ _ = siblings at each through ⊢
  cases fatal : siblings.1.fatal with
  | some tag =>
    simp only [fatal] at through
    contradiction
  | none =>
    obtain ⟨stems, text, derivations⟩ := each fatal
    simp only [Run.pure_apply, text]
    exact ⟨siblings.1.nodes, _, ⟨stems.trans segments, derivations⟩, rfl⟩

omit derives in
/-- Modifiers change the text of a node, from left to right, and add to its problems. -/
theorem applyModifiers_eq (node : Node) (modifiers : List String) {state : Expansion}
    (governs : start.Governs state) :
    ∃ errors, (applyModifiers node modifiers state).1 =
      { node with text := modifiers.foldl start.grammar.modified node.text, errors } := by
  induction modifiers generalizing node state with
  | nil => exact ⟨node.errors, by cases node; rfl⟩
  | cons written rest ih =>
    have same (name : String) : state.grammar.modifier? name = start.grammar.modifier? name :=
      congrArg (List.lookup name) governs.modifiers
    simp only [applyModifiers, applyModifier, Run.bind_apply, Run.get_apply, same,
      List.foldl_cons, Grammar.modified]
    cases start.grammar.modifier? (ModifierCall.parse written).name with
    | some modifier => exact ih _ governs
    | none => exact ih _ ⟨governs.limit, governs.modifiers⟩

/-- A symbol comes to the children of the rule that was selected for it, under the modifiers. -/
theorem offspring_resolveSymbol (node : Node) (symbol : String) {state : Expansion}
    (governs : start.Governs state)
    (through : (resolveSymbol inner node symbol state).1.fatal = none) :
    ∃ rule children errors, Offspring start rule node.place children ∧
      (resolveSymbol inner node symbol state).1.node = { node with
        symbol := some symbol, childRule := some rule, children, errors
        text := node.modifiers.foldl start.grammar.modified (Node.joined children) } := by
  have walks := inherited_walks derives.plays
  have chosen : start.Governs (selectRule inner symbol (some node.place) state).2 :=
    (walks.selectRule symbol (some node.place)).governs governs
  simp only [resolveSymbol, Run.bind_apply] at through ⊢
  generalize selectRule inner symbol (some node.place) state = choice at chosen through ⊢
  cases result : choice.1.result with
  | error tag =>
    simp only [result] at through
    contradiction
  | ok rule =>
    simp only [result, Run.bind_apply] at through ⊢
    have offspring := offspring_expandChildren derives
      { node.addErrors choice.1.problems with symbol := some symbol }
      (rule.getD (placeholder symbol)) chosen
    have expanded : start.Governs (expandChildren inner
        { node.addErrors choice.1.problems with symbol := some symbol }
        (rule.getD (placeholder symbol)) choice.2).2 :=
      (walks.expandChildren _ _).governs chosen
    generalize expandChildren inner _ _ choice.2 = outcome at offspring expanded through ⊢
    cases fatal : outcome.1.fatal with
    | some tag =>
      simp only [fatal] at through
      contradiction
    | none =>
      obtain ⟨children, _, offspring, grown⟩ := offspring fatal
      obtain ⟨errors, modified⟩ :=
        applyModifiers_eq outcome.1.node outcome.1.node.modifiers expanded
      rw [grown] at modified
      refine ⟨_, children, errors, offspring, ?_⟩
      simp only [Run.bind_apply, Run.pure_apply, grown]
      exact modified

omit derives in
/-- The actions of a tag head that all ran pushed where they say they push. -/
theorem targets_openScopes {actions : List Action} {state : Expansion}
    (through : (openScopes inner actions state).1.fatal = none) :
    (openScopes inner actions state).1.targets = actions.filterMap Action.pushed? := by
  induction actions generalizing state with
  | nil => rfl
  | cons action rest ih =>
    have pushed {target : Option String} : (activate inner .tagHead action state).1.result =
        .ok target → target = action.pushed? := result_activate
    simp only [openScopes, Run.bind_apply] at through ⊢
    generalize activate inner .tagHead action state = report at pushed through ⊢
    cases result : report.1.result with
    | error tag =>
      simp only [result] at through
      contradiction
    | ok target =>
      simp only [result, Run.bind_apply, Run.pure_apply] at through ⊢
      rw [ih through, pushed result, List.filterMap_cons]
      cases action.pushed? <;> rfl

theorem derivation_expandTag {node : Node} (kind : node.kind = .segment .tag)
    (expanded : node.expanded = true) {state : Expansion} (governs : start.Governs state)
    (through : (expandTag inner node state).1.fatal = none) :
    (expandTag inner node state).1.node.stem = node.stem ∧
      (expandTag inner node state).1.node.Derivation start := by
  simp only [expandTag] at through ⊢
  cases parsed : TagHead.parse node.raw with
  | error tag =>
    simp only [parsed] at through
    contradiction
  | ok head =>
    have noted : start.Governs (Run.note head.problems state).2 :=
      ⟨governs.limit, governs.modifiers⟩
    have opened : start.Governs (openScopes inner (head.preactions.map Action.parse)
        (Run.note head.problems state).2).2 :=
      ((inherited_walks derives.plays).openScopes _).governs noted
    have targets := @targets_openScopes inner (head.preactions.map Action.parse)
      (Run.note head.problems state).2
    simp only [parsed, Run.bind_apply] at through ⊢
    generalize openScopes inner _ _ = scopes at opened targets through ⊢
    cases fatal : scopes.1.fatal with
    | some tag =>
      simp only [fatal] at through
      contradiction
    | none =>
      simp only [fatal, Run.bind_apply, Run.pure_apply] at through ⊢
      obtain ⟨rule, children, errors, offspring, resolved⟩ := offspring_resolveSymbol derives
        (headed node head scopes.1.problems) head.symbol opened through
      simp only [headed] at resolved
      simp only [resolved]
      refine ⟨rfl, .intro expanded ?_ offspring.derivations⟩
      refine .tag kind parsed rfl rfl rfl ?_ rfl offspring.segments rfl
      exact congrArg (List.map Action.pop) (targets fatal)

omit derives in
/-- An action leaves a node without children and without text. -/
theorem derivation_expandAction {node : Node} (kind : node.kind = .segment .action)
    (expanded : node.expanded = true) (fresh : node.Fresh) (blank : node.text = "")
    {state : Expansion} (through : (expandAction inner node state).1.fatal = none) :
    (expandAction inner node state).1.node.stem = node.stem ∧
      (expandAction inner node state).1.node.Derivation start := by
  simp only [expandAction, Run.bind_apply] at through ⊢
  generalize activate inner .bare (Action.parse node.raw) state = report at through ⊢
  cases result : report.1.result with
  | error tag =>
    simp only [result] at through
    contradiction
  | ok target =>
    refine ⟨rfl, .intro expanded (.action kind rfl fresh.1 blank) ?_⟩
    exact fresh.1 ▸ List.forall_mem_nil _

theorem derivation_expandBody {node : Node} (asks : node.kind ≠ .segment .plain)
    (expanded : node.expanded = true) (fresh : node.Fresh) (blank : node.text = "")
    {state : Expansion} (governs : start.Governs state)
    (through : (expandBody inner node state).1.fatal = none) :
    (expandBody inner node state).1.node.stem = node.stem ∧
      (expandBody inner node state).1.node.Derivation start := by
  rcases kind : node.kind with _ | segment
  · simp only [expandBody, kind] at through ⊢
    obtain ⟨children, errors, offspring, grown⟩ :=
      offspring_expandChildren derives node node.raw governs through
    rw [grown]
    exact ⟨rfl, .intro expanded (.root kind rfl offspring.segments rfl) offspring.derivations⟩
  cases segment with
  | plain => exact absurd kind asks
  | action =>
    simp only [expandBody, kind] at through ⊢
    exact derivation_expandAction kind expanded fresh blank through
  | tag =>
    simp only [expandBody, kind] at through ⊢
    exact derivation_expandTag derives kind expanded governs through

theorem derives_withRoom : Derives start (withRoom (expandBody inner)) where
  plays := plays_withRoom derives.plays
  derives {node state} blank governs through := by
    cases admission node state with
    | done expanded =>
      have new := blank.new
      rw [expanded] at new
      contradiction
    | plain new plain =>
      rw [withRoom_plain _ new plain]
      refine ⟨rfl, .intro rfl (.plain plain blank.fresh.1 rfl) ?_⟩
      exact blank.fresh.1 ▸ List.forall_mem_nil _
    | full new asks full =>
      rw [withRoom_full _ new asks full]
      have told : node.errors ++ [Problem.recursionLimit state.limit node.raw] =
          [.recursionLimit start.limit node.raw] := by
        rw [blank.fresh.2, governs.limit, List.nil_append]
      refine ⟨rfl, .intro rfl (.refused asks blank.fresh.1 rfl told) ?_⟩
      exact blank.fresh.1 ▸ List.forall_mem_nil _
    | room new asks going room =>
      rw [withRoom_room _ new asks going room] at through ⊢
      have entered : start.Governs (state.inside node.raw) := ⟨governs.limit, governs.modifiers⟩
      have begun : node.begun.kind ≠ .segment .plain := asks
      exact derivation_expandBody derives begun rfl blank.fresh blank.text entered through

omit derives in
theorem derives_expander {below : Expander} (derives : Derives start below) (levels : Nat) :
    Derives start (expander below levels) := by
  induction levels with
  | zero => exact derives_withRoom derives
  | succ levels ih => exact derives_withRoom ih

end

theorem derives_cutOff (start : Expansion) : Derives start cutOff where
  plays _ state _ := ⟨[], .still (.nil state) (List.forall_mem_nil _)⟩
  derives _ _ through := absurd through (Option.some_ne_none _)

/-- Every node that is let through stands on top of a derivation. -/
theorem derives_expandNode (start : Expansion) : Derives start expandNode where
  plays := plays_expandNode
  derives {node state} blank governs through := by
    have levels := derives_expander (derives_cutOff start) (state.limit - state.depth)
    rw [← expander_eq_expandNode cutOff blank.fresh state] at through ⊢
    exact levels.derives blank governs through

end Engine

/-- The tree of a rule that was expanded is a derivation, but for the escape markers in its text,
which are resolved last if at all. -/
theorem expandRule_derives {rule : String} {options : ExpandOptions} {state : Expansion}
    {root : Node} (recursive : options.preventRecursion = false)
    (succeeds : (Run.expandRule rule options state).1 = .ok root) :
    ∃ tree : Node, root = (if options.resolveEscapes then tree.resolveEscapes else tree) ∧
      tree.stem = ⟨.root, rule, ⟨0, 0⟩, none⟩ ∧
      ∀ node ∈ tree.preorder, node.expanded = true ∧ node.Derived state := by
  have governs : state.Governs state := ⟨rfl, rfl⟩
  have derives := (derives_expandNode state).derives (Node.blank_root rule) governs
  simp only [Run.expandRule, Run.expandOnce, recursive, Bool.false_eq_true, ↓reduceIte,
    Run.bind_apply, Run.pure_apply] at succeeds
  generalize expandNode (.root rule) state = outcome at derives succeeds
  cases fatal : outcome.1.fatal with
  | some tag =>
    simp only [Outcome.result, fatal] at succeeds
    contradiction
  | none =>
    simp only [Outcome.result, fatal] at succeeds
    cases succeeds
    obtain ⟨stem, derivation⟩ := derives fatal
    exact ⟨outcome.1.node, rfl, stem, derivation⟩

/-- A grammar of a lighthouse, whose ceiling leaves room for a tag in a tag, and no further. -/
def lighthouse : Grammar :=
  { Grammar.ofWritten [("beam", .one "#colour# [n:1]")] { maxDepth := 3 } with
    modifiers := [("twice", fun text _ => text ++ text)] }

/-- The tag has a scoped push, a modifier and a name that is none; what it selects pushes beyond the
ceiling, so that the tag after it is refused. -/
theorem expandRule_derives_lighthouse :
    let state := start lighthouse { stream := fun _ => default }
    let rule := "\\#[m:2]#[colour:red]beam.twice.loud# #y#"
    ∃ root tree : Node, (Run.expandRule rule {} state).1 = .ok root ∧
      root.text = "#red red ((.loud)) ((y))" ∧
      root.children.map (·.text) = ["\\#", "", "red red ((.loud))", " ", "((y))"] ∧
      root = tree.resolveEscapes ∧
      ∀ node ∈ tree.preorder, node.expanded = true ∧ node.Derived state := by
  intro state rule
  have seen : (Run.expandRule rule {} state).1.toOption.map
      (fun root => (root.text, root.children.map (·.text))) =
        some ("#red red ((.loud)) ((y))", ["\\#", "", "red red ((.loud))", " ", "((y))"]) := by
    decide +kernel
  obtain ⟨root, succeeds, told⟩ := exists_ok_of_map seen
  obtain ⟨text, children⟩ := Prod.mk.inj told
  obtain ⟨tree, resolved, _, derivation⟩ := expandRule_derives rfl succeeds
  exact ⟨root, tree, succeeds, text, children, resolved, derivation⟩

end TextGrammar
