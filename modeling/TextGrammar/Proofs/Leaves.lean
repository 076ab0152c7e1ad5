import TextGrammar.Proofs.Levels
import TextGrammar.Proofs.Literal

/-! # The text of a tree

The plain nodes of a tree hold what was written in the rules that it came from. If nothing went
wrong on the way, and no tag changed its text with a modifier, the text of the tree is put together
from them in their order, and nothing is added or left out. Each of them stands in a rule that was
read without a problem, so each is literal unless its end would escape what follows.
-/

namespace TextGrammar

open Engine Expansion

/-- What is written in the plain ones among some nodes. -/
def plainTexts (nodes : List Node) : List String :=
  (nodes.filter (·.kind == .segment .plain)).map (·.raw)

/-- A text is put together from what is written in the plain ones among some nodes, each of them
literal unless its end would escape what follows. -/
structure SpelledBy (nodes : List Node) (text : String) : Prop where
  joined : text = String.join (plainTexts nodes)
  literal : ∀ plain ∈ plainTexts nodes, endsUnpaired plain.toList = false → Literal plain

namespace SpelledBy

variable {nodes more : List Node} {text next : String}

theorem nothing : SpelledBy [] "" :=
  ⟨rfl, List.forall_mem_nil _⟩

theorem append (spelled : SpelledBy nodes text) (then_ : SpelledBy more next) :
    SpelledBy (nodes ++ more) (text ++ next) := by
  have parts : plainTexts (nodes ++ more) = plainTexts nodes ++ plainTexts more := by
    simp only [plainTexts, List.filter_append, List.map_append]
  refine ⟨?_, ?_⟩
  · rw [parts, String.join_append, ← spelled.joined, ← then_.joined]
  · rw [parts]
    exact List.forall_mem_append.mpr ⟨spelled.literal, then_.literal⟩

/-- A node that is no plain text adds nothing of its own. -/
theorem cons {node : Node} (other : node.kind ≠ .segment .plain) (spelled : SpelledBy nodes text) :
    SpelledBy (node :: nodes) text := by
  have same : plainTexts (node :: nodes) = plainTexts nodes := by
    rw [plainTexts, List.filter_cons, beq_false_of_ne other]
    rfl
  exact ⟨same ▸ spelled.joined, same ▸ spelled.literal⟩

theorem plain {node : Node} (plain : node.kind = .segment .plain)
    (literal : endsUnpaired node.raw.toList = false → Literal node.raw) :
    SpelledBy [node] node.raw := by
  have whole : plainTexts [node] = [node.raw] := by
    rw [plainTexts, List.filter_cons, plain]
    rfl
  refine ⟨?_, ?_⟩
  · rw [whole, String.join_cons, String.join_nil, String.append_empty]
  · rw [whole]
    exact List.forall_mem_singleton.mpr literal

end SpelledBy

namespace Node

theorem preorder_eq (node : Node) : node.preorder = node :: preorderAll node.children := by
  cases node
  rfl

theorem mem_preorderAll {nodes : List Node} {node : Node} :
    node ∈ preorderAll nodes ↔ ∃ root ∈ nodes, node ∈ root.preorder := by
  induction nodes with
  | nil => exact ⟨nofun, nofun⟩
  | cons root rest ih =>
    simp only [preorderAll, List.mem_append, ih, List.exists_mem_cons_iff]

/-- No tag of a tree has modifiers. -/
def Unmodified (root : Node) : Prop :=
  ∀ node ∈ root.preorder, node.kind = .segment .tag → node.modifiers = []

instance (root : Node) : Decidable root.Unmodified :=
  inferInstanceAs (Decidable (∀ node ∈ root.preorder, _))

namespace Unmodified

variable {root : Node} (unmodified : root.Unmodified)
include unmodified

theorem self (tag : root.kind = .segment .tag) : root.modifiers = [] :=
  unmodified root (root.preorder_eq ▸ List.mem_cons_self) tag

theorem child {node : Node} (member : node ∈ root.children) : node.Unmodified :=
  fun below inside => unmodified below
    (root.preorder_eq ▸ List.mem_cons_of_mem _ (mem_preorderAll.mpr ⟨node, member, inside⟩))

end Unmodified

/-- The kind of a node, and the modifiers that were read from it. -/
def heading (node : Node) : NodeKind × List String :=
  (node.kind, node.modifiers)

/-- A node that nothing came of yet and whose text, if it is plain, is literal unless its end would
escape what follows. -/
structure Unwritten (node : Node) : Prop where
  new : node.expanded = false
  fresh : node.Fresh
  text : node.text = ""
  plain : node.kind = .segment .plain → endsUnpaired node.raw.toList = false → Literal node.raw

theorem unwritten_root (rule : String) : (root rule).Unwritten :=
  ⟨rfl, fresh_root rule, rfl, nofun⟩

/-- The nodes of a rule without problems. -/
theorem unwritten_adopt {rule : String} (sound : (Scanned.ofRule rule).problems = [])
    (node : Node) :
    ∀ child ∈ (node.adopt rule (Scanned.ofRule rule)).children, child.Unwritten := by
  intro child member
  obtain ⟨index, bound, rfl⟩ := List.mem_mapIdx.mp member
  exact ⟨rfl, fresh_ofSegment _ _ _, rfl, fun plain => literal_of_plain sound
    (List.getElem_mem bound) (NodeKind.segment.inj plain)⟩

end Node

/-- A node that was expanded without a problem and without modifiers has the text of its tree. -/
def Outcome.Spelled (outcome : Outcome) : Prop :=
  outcome.fatal = none → outcome.node.errors = [] → outcome.node.Unmodified →
    SpelledBy outcome.node.preorder outcome.node.text

namespace Engine

/-- An expander whose nodes come to the texts of their trees, under those conditions. -/
def Spells (inner : Expander) : Prop :=
  ∀ node state, node.Unwritten → (inner node state).1.Spelled

section

variable {inner : Expander} (spells : Spells inner)
include spells

theorem spelled_expandEach {nodes : List Node}
    (unwritten : ∀ node ∈ nodes, node.Unwritten) (state : Expansion)
    (through : (expandEach inner nodes state).1.fatal = none)
    (sound : (expandEach inner nodes state).1.errors = [])
    (unmodified : ∀ node ∈ (expandEach inner nodes state).1.nodes, node.Unmodified) :
    SpelledBy (Node.preorderAll (expandEach inner nodes state).1.nodes)
      (expandEach inner nodes state).1.text := by
  induction nodes generalizing state with
  | nil => exact .nothing
  | cons child rest ih =>
    obtain ⟨childUnwritten, restUnwritten⟩ := List.forall_mem_cons.mp unwritten
    have first := spells child state childUnwritten
    simp only [expandEach, Run.bind_apply] at through sound unmodified ⊢
    generalize inner child state = outcome at first through sound unmodified ⊢
    cases fatal : outcome.1.fatal with
    | some tag =>
      simp only [fatal] at through
      contradiction
    | none =>
      simp only [fatal, Run.bind_apply, Run.pure_apply, List.append_eq_nil_iff,
        List.forall_mem_cons] at through sound unmodified ⊢
      exact (first fatal sound.1 unmodified.1).append
        (ih restUnwritten outcome.2 through sound.2 unmodified.2)

theorem spelled_expandChildren (node : Node) (rule : String) (state : Expansion)
    (through : (expandChildren inner node rule state).1.fatal = none)
    (sound : (expandChildren inner node rule state).1.node.errors = [])
    (unmodified : ∀ child ∈ (expandChildren inner node rule state).1.node.children,
      child.Unmodified) :
    SpelledBy (Node.preorderAll (expandChildren inner node rule state).1.node.children)
      (expandChildren inner node rule state).1.node.text := by
  have children (scans : (Scanned.ofRule rule).problems = []) :=
    spelled_expandEach spells (Node.unwritten_adopt scans node)
      (Run.note (Scanned.ofRule rule).problems state).2
  simp only [expandChildren, Run.bind_apply] at through sound unmodified ⊢
  generalize expandEach inner _ _ = siblings at children through sound unmodified ⊢
  cases fatal : siblings.1.fatal with
  | some tag =>
    simp only [fatal] at through
    contradiction
  | none =>
    simp only [fatal, Run.pure_apply] at sound unmodified ⊢
    change node.errors ++ (Scanned.ofRule rule).problems ++ siblings.1.errors = [] at sound
    obtain ⟨scanned, errors⟩ := List.append_eq_nil_iff.mp sound
    exact children (List.append_eq_nil_iff.mp scanned).2 fatal errors unmodified

omit spells in
theorem heading_expandChildren (node : Node) (rule : String) (state : Expansion) :
    (expandChildren inner node rule state).1.node.heading = node.heading := by
  simp only [expandChildren, Run.bind_apply]
  generalize expandEach inner _ _ = siblings
  cases siblings.1.fatal <;> rfl

omit spells in
theorem heading_applyModifiers (node : Node) (modifiers : List String) (state : Expansion) :
    (applyModifiers node modifiers state).1.heading = node.heading := by
  induction modifiers generalizing node state with
  | nil => rfl
  | cons written rest ih =>
    simp only [applyModifiers, applyModifier, Run.bind_apply, Run.get_apply]
    cases state.grammar.modifier? (ModifierCall.parse written).name <;> exact ih _ _

omit spells in
theorem heading_resolveSymbol (node : Node) (symbol : String) (state : Expansion) :
    (resolveSymbol inner node symbol state).1.node.heading = node.heading := by
  simp only [resolveSymbol, Run.bind_apply]
  generalize selectRule inner symbol (some node.place) state = choice
  cases choice.1.result with
  | error tag => rfl
  | ok rule =>
    simp only [Run.bind_apply]
    have kept := @heading_expandChildren inner
      { node.addErrors choice.1.problems with symbol := some symbol }
      (rule.getD (placeholder symbol)) choice.2
    generalize expandChildren inner _ _ choice.2 = outcome at kept ⊢
    cases outcome.1.fatal with
    | some tag => exact kept
    | none => exact (heading_applyModifiers _ _ _).trans kept

/-- Without modifiers, a tag comes to what the rule comes to that was selected for its symbol. -/
theorem spelled_resolveSymbol {node : Node} (none_ : node.modifiers = []) (symbol : String)
    (state : Expansion) (through : (resolveSymbol inner node symbol state).1.fatal = none)
    (sound : (resolveSymbol inner node symbol state).1.node.errors = [])
    (unmodified : ∀ child ∈ (resolveSymbol inner node symbol state).1.node.children,
      child.Unmodified) :
    SpelledBy (Node.preorderAll (resolveSymbol inner node symbol state).1.node.children)
      (resolveSymbol inner node symbol state).1.node.text := by
  simp only [resolveSymbol, Run.bind_apply] at through sound unmodified ⊢
  generalize selectRule inner symbol (some node.place) state = choice
    at through sound unmodified ⊢
  cases result : choice.1.result with
  | error tag =>
    simp only [result] at through
    contradiction
  | ok rule =>
    simp only [result, Run.bind_apply] at through sound unmodified ⊢
    have kept := @heading_expandChildren inner
      { node.addErrors choice.1.problems with symbol := some symbol }
      (rule.getD (placeholder symbol)) choice.2
    have spelled := spelled_expandChildren spells
      { node.addErrors choice.1.problems with symbol := some symbol }
      (rule.getD (placeholder symbol)) choice.2
    generalize expandChildren inner _ _ choice.2 = outcome
      at kept spelled through sound unmodified ⊢
    cases fatal : outcome.1.fatal with
    | some tag =>
      simp only [fatal] at through
      contradiction
    | none =>
      have none : outcome.1.node.modifiers = [] := (congrArg Prod.snd kept).trans none_
      simp only [fatal, none] at sound unmodified ⊢
      exact spelled fatal sound unmodified

theorem spelled_expandTag {node : Node} (kind : node.kind = .segment .tag) (state : Expansion) :
    (expandTag inner node state).1.Spelled := by
  intro through sound unmodified
  simp only [expandTag] at through sound unmodified ⊢
  cases parsed : TagHead.parse node.raw with
  | error tag =>
    simp only [parsed] at through
    contradiction
  | ok head =>
    simp only [parsed, Run.bind_apply] at through sound unmodified ⊢
    generalize openScopes inner _ _ = scopes at through sound unmodified ⊢
    cases fatal : scopes.1.fatal with
    | some tag =>
      simp only [fatal] at through
      contradiction
    | none =>
      simp only [fatal, Run.bind_apply] at through sound unmodified ⊢
      have kept := @heading_resolveSymbol inner
        (headed node head scopes.1.problems) head.symbol scopes.2
      have spelled (none_ : (headed node head scopes.1.problems).modifiers = []) :=
        spelled_resolveSymbol spells none_ head.symbol scopes.2
      simp only [headed] at kept spelled
      generalize resolveSymbol inner _ head.symbol scopes.2 = outcome
        at kept spelled through sound unmodified ⊢
      have ofTag : outcome.1.node.kind = .segment .tag := (congrArg Prod.fst kept).trans kind
      have none_ : outcome.1.node.modifiers = [] := unmodified.self ofTag
      have head_ : head.modifiers = [] := (congrArg Prod.snd kept).symm.trans none_
      rw [Node.preorder_eq]
      refine .cons ?_ (spelled head_ through (List.append_eq_nil_iff.mp sound).1
        fun child member => unmodified.child member)
      exact fun plain => absurd (ofTag.symm.trans plain) (by decide)

omit spells in
/-- An action leaves nothing. -/
theorem spelled_expandAction {node : Node} (kind : node.kind = .segment .action)
    (fresh : node.Fresh) (blank : node.text = "") (state : Expansion) :
    (expandAction inner node state).1.Spelled := by
  intro _ _ _
  have nothing : SpelledBy (Node.preorderAll node.children) node.text := by
    rw [fresh.1, blank]
    exact .nothing
  simp only [expandAction, Run.bind_apply]
  generalize activate inner .bare (Action.parse node.raw) state = report
  cases report.1.result <;>
    · rw [Node.preorder_eq]
      exact .cons (fun plain => absurd (kind.symm.trans plain) (by decide)) nothing

theorem spelled_expandBody {node : Node} (other : node.kind ≠ .segment .plain)
    (fresh : node.Fresh) (blank : node.text = "") (state : Expansion) :
    (expandBody inner node state).1.Spelled := by
  rcases kind : node.kind with _ | segment
  · simp only [expandBody, kind]
    intro through sound unmodified
    have kept := @heading_expandChildren inner node node.raw state
    rw [Node.preorder_eq]
    refine .cons ?_ (spelled_expandChildren spells node node.raw state through sound
      fun child member => unmodified.child member)
    exact fun plain => other ((congrArg Prod.fst kept).symm.trans plain)
  cases segment with
  | plain => exact absurd kind other
  | action =>
    simp only [expandBody, kind]
    exact spelled_expandAction kind fresh blank state
  | tag =>
    simp only [expandBody, kind]
    exact spelled_expandTag spells kind state

theorem spells_withRoom : Spells (withRoom (expandBody inner)) := by
  intro node state unwritten
  cases admission node state with
  | done expanded =>
    have new := unwritten.new
    rw [expanded] at new
    contradiction
  | plain new plain =>
    rw [withRoom_plain _ new plain]
    intro _ _ _
    rw [Node.preorder_eq]
    change SpelledBy (_ :: Node.preorderAll node.children) node.raw
    rw [unwritten.fresh.1]
    exact SpelledBy.plain plain (unwritten.plain plain)
  | full new asks full =>
    rw [withRoom_full _ new asks full]
    intro _ sound
    exact absurd (List.append_eq_nil_iff.mp sound).2 (List.cons_ne_nil _ _)
  | room new asks going room =>
    rw [withRoom_room _ new asks going room]
    have begun : node.begun.kind ≠ .segment .plain := asks
    exact spelled_expandBody spells begun unwritten.fresh unwritten.text (state.inside node.raw)

omit spells in
theorem spells_expander {below : Expander} (spells : Spells below) (levels : Nat) :
    Spells (expander below levels) := by
  induction levels with
  | zero => exact spells_withRoom spells
  | succ levels ih => exact spells_withRoom ih

end

/-- An expander that lets nothing through. -/
def cutOff : Expander := fun node => pure ⟨node, some ⟨node.raw⟩⟩

theorem spells_cutOff : Spells cutOff :=
  fun _ _ _ through => absurd through (Option.some_ne_none _)

end Engine

/-- Every tree spells its text, if it was expanded without a problem and without modifiers. -/
theorem spells_expandNode : Spells expandNode := by
  intro node state unwritten
  rw [← expander_eq_expandNode cutOff unwritten.fresh state]
  exact spells_expander spells_cutOff _ node state unwritten

end TextGrammar
