import TextGrammar.Proofs.Leaves

/-! # Finished text is not expanded again

What a rule comes to is put together from the plain text in its tree. If nothing went wrong on the
way, no tag changed what was written with a modifier, and no plain text ends in a backslash that
would reach across a seam, then the finished text is literal. So an alternative that was expanded
before it was pushed stays as it is whenever it is selected.
-/

namespace TextGrammar

open Engine Expansion

namespace Node

/-- A tree whose text is what is written in its leaves: no tag has modifiers, and no plain text ends
in a backslash without a partner. -/
structure Verbatim (root : Node) : Prop where
  unmodified : ∀ node ∈ root.preorder, node.kind = .segment .tag → node.modifiers = []
  paired : ∀ node ∈ root.preorder, node.kind = .segment .plain →
    endsUnpaired node.raw.toList = false

instance (root : Node) : Decidable root.Verbatim :=
  decidable_of_iff
    (∀ node ∈ root.preorder, (node.kind = .segment .tag → node.modifiers = []) ∧
      (node.kind = .segment .plain → endsUnpaired node.raw.toList = false))
    ⟨fun each => ⟨fun node member => (each node member).1, fun node member => (each node member).2⟩,
      fun ⟨unmodified, paired⟩ node member => ⟨unmodified node member, paired node member⟩⟩

/-- Every plain text of such a tree is literal if it is literal unless its end would escape what
follows, and so is what is put together from them. -/
theorem Verbatim.literal {root : Node} (verbatim : root.Verbatim)
    (spelled : SpelledBy root.preorder root.text) : Literal root.text := by
  have paired : ∀ text ∈ plainTexts root.preorder, endsUnpaired text.toList = false := by
    intro text member
    obtain ⟨node, inside, rfl⟩ := List.mem_map.mp member
    obtain ⟨inside, plain⟩ := List.mem_filter.mp inside
    exact verbatim.paired node inside (eq_of_beq plain)
  rw [spelled.joined]
  exact Literal.join fun text member => spelled.literal text member (paired text member)

end Node

/-- A node that was expanded without a problem has a literal text if its tree is verbatim. -/
def Outcome.Literal (outcome : Outcome) : Prop :=
  outcome.fatal = none → outcome.node.errors = [] → outcome.node.Verbatim →
    TextGrammar.Literal outcome.node.text

namespace Engine

/-- An expander whose nodes come to literal texts, under those conditions. -/
def WritesLiterals (inner : Expander) : Prop :=
  ∀ node state, node.Unwritten → (inner node state).1.Literal

end Engine

theorem writesLiterals_expandNode : WritesLiterals expandNode := by
  intro node state unwritten through sound verbatim
  exact verbatim.literal (spells_expandNode node state unwritten through sound verbatim.unmodified)

/-- An alternative that was expanded without a problem, by a tree in which no modifier changes what
was written and no text ends in a backslash without a partner, is plain text as a whole: a scan of
it finds one plain text and no problem, expanding it gives it again, without a problem, and changes
neither the rolls nor the grammar, and a tag that selects it takes it as it is. -/
theorem expanded_part_is_literal {part : String} {state : Expansion} {root : Node}
    (succeeds : (Run.expandRule part .nested state).1 = .ok root) (sound : root.errors = [])
    (verbatim : root.Verbatim) :
    Scanned.ofRule root.text = ⟨Segment.plainOf root.text.toList, []⟩ ∧
      (∀ (grammar : Grammar) (rolls : Rolls), 1 ≤ grammar.settings.maxDepth →
        ∃ again after, grammar.expandWith root.text .nested rolls = (.ok again, after) ∧
          again.text = root.text ∧ again.errors = [] ∧ after.rolls = rolls ∧
          after.grammar = grammar) ∧
      ∀ (node : Node) (later : Expansion), ∃ outcome,
        expandChildren expandNode node root.text later = (outcome, later) ∧
          outcome.fatal = none ∧ outcome.node.text = root.text ∧
          outcome.node.errors = node.errors := by
  have literal : Literal root.text := by
    have writes := writesLiterals_expandNode (.root part) state (Node.unwritten_root part)
    simp only [Run.expandRule, ExpandOptions.nested, Run.expandOnce, Bool.false_eq_true,
      ↓reduceIte, Run.bind_apply, Run.pure_apply] at succeeds
    generalize expandNode (.root part) state = outcome at writes succeeds
    cases fatal : outcome.1.fatal with
    | some tag =>
      simp only [Outcome.result, fatal] at succeeds
      contradiction
    | none =>
      simp only [Outcome.result, fatal] at succeeds
      cases succeeds
      exact writes fatal sound verbatim
  refine ⟨literal.ofRule_eq, fun grammar rolls room => ?_, fun node later => ?_⟩
  · exact expandWith_literal literal room false rolls
  · obtain ⟨outcome, ran, through, text, errors, _⟩ := expandChildren_literal literal node later
    exact ⟨outcome, ran, through, text, errors⟩

/-- A grammar that tells of a harbour, with brackets in its text that close before they open. -/
def harbour : Grammar :=
  .ofWritten [("gull", .one "] # ["), ("quay", .one "quay\\#[flag:red,blue]#gull#")] {}

/-- The parts come from three rules, one of them with a scoped push, and hold brackets, a mark
between them, and an escaped mark. -/
theorem expanded_part_is_literal_harbour :
    let rolls : Rolls := { stream := fun _ => default }
    ∃ root, (Run.expandRule "]#[#[n:1]quay#!" .nested (start harbour rolls)).1 = .ok root ∧
      root.text = "]#[quay\\#] # [!" ∧ root.errors = [] ∧ root.Verbatim ∧
      Scanned.ofRule root.text = ⟨[⟨.plain, root.text⟩], []⟩ ∧
      ∃ again after, Grammar.expandWith {} root.text .nested rolls = (.ok again, after) ∧
        again.text = root.text ∧ again.errors = [] ∧ after.rolls = rolls := by
  intro rolls
  have seen : (Run.expandRule "]#[#[n:1]quay#!" .nested (start harbour rolls)).1.toOption.map
      (fun root => (root.text, root.errors, decide root.Verbatim)) =
        some ("]#[quay\\#] # [!", [], true) := by
    decide +kernel
  obtain ⟨root, succeeds, told⟩ := exists_ok_of_map seen
  obtain ⟨text, rest⟩ := Prod.mk.inj told
  obtain ⟨sound, decided⟩ := Prod.mk.inj rest
  have verbatim := of_decide_eq_true decided
  obtain ⟨scans, again, _⟩ := expanded_part_is_literal succeeds sound verbatim
  obtain ⟨node, after, expands, same, errors, untouched, _⟩ := again {} rolls (by decide)
  refine ⟨root, succeeds, text, sound, verbatim, ?_, node, after, expands, same, errors, untouched⟩
  rw [scans, text]
  rfl

end TextGrammar
