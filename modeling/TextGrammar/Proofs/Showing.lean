import TextGrammar.Proofs.Equations
import TextGrammar.Proofs.Reading

/-! # Showing a rule

An expansion that is kept from going into its segments shows the rule by them. It shares the way a
node is given room with every other expansion, but it selects nothing, draws no roll and runs no
action: only the journal tells of it. What it shows is the rule again, unless the rule leaves a tag
or a bracket open.
-/

namespace TextGrammar

open Engine Expansion

/-- The segments of a rule that closes every tag and every bracket make the rule again. -/
theorem rule_of_closed {rule : String} (noTag : .unclosedTag ∉ (Scanned.ofRule rule).problems)
    (noBracket : .unclosedBracket ∉ (Scanned.ofRule rule).problems) :
    Segment.rule (Scanned.ofRule rule).segments = rule := by
  rw [mem_problems_ofRule rfl, Cursor.unclosedTag_mem_leftOpen] at noTag
  rw [mem_problems_ofRule rfl, Cursor.unclosedBracket_mem_leftOpen] at noBracket
  have whole := (Reading.accounts_upTo rule.toList).text
  -- Nothing is open at the end, so what was read is what is finished and the last plain text.
  rw [Cursor.opener, if_neg noTag, if_neg noBracket, List.append_nil] at whole
  rw [Reading.ofRule_eq_finish, Reading.segments_finish, Segment.rule_append,
    Segment.rule_plainOf]
  apply String.toList_injective
  rw [String.toList_append, String.toList_ofList]
  exact whole.symm

namespace Node

/-- A segment is shown alike in its rule and in the tree. -/
theorem sources_ofSegment (place : Place) (segments : List Segment) :
    (segments.mapIdx (ofSegment place)).map source = segments.map Segment.source := by
  apply List.ext_getElem?
  intro index
  rw [List.getElem?_map, List.getElem?_mapIdx, List.getElem?_map, Option.map_map]
  rfl

/-- The root that shows a rule by its segments. -/
def shown (rule : String) : Node :=
  { (root rule).begun.adopt rule (Scanned.ofRule rule) with
    text := Segment.rule (Scanned.ofRule rule).segments }

end Node

namespace Engine

/-- Where there is room for it, a rule is shown, and only the journal tells. -/
theorem previewNode_root (rule : String) {state : Expansion} (going : state.tripped = false)
    (room : state.depth < state.limit) :
    previewNode (.root rule) state = (⟨.shown rule, none⟩,
      state.record (.entered rule (state.depth + 1) ::
        (Scanned.ofRule rule).problems.map .noted ++ [.left (state.depth + 1)])) := by
  have shows : previewBody (Node.root rule).begun (state.inside rule) =
      (⟨.shown rule, none⟩,
        (state.inside rule).record ((Scanned.ofRule rule).problems.map .noted)) := by
    have text := congrArg String.join (Node.sources_ofSegment ⟨0, 0⟩ (Scanned.ofRule rule).segments)
    simp only [previewBody, Run.bind_apply, Run.pure_apply]
    refine Prod.ext ?_ rfl
    exact congrArg (fun text => Outcome.mk { Node.shown rule with text } none) text
  refine (withRoom_room previewBody rfl (asks_root rule) going room).trans ?_
  rw [Run.bind_apply, show (Node.root rule).raw = rule from rfl, shows]
  refine Prod.ext rfl ?_
  rw [List.cons_append, ← List.singleton_append, record_append, record_append]
  rfl

end Engine

/-- Kept from going into its segments, the expansion of any rule succeeds and leaves the grammar and
the rolls alone. Its root has one child for each segment, none of them expanded, and the problems of
the scan and no others; its text puts the children together as they stand in the rule, and is the
rule unless that leaves a tag or a bracket open. -/
theorem prevented_expansion_shows_rule {grammar : Grammar}
    (room : 0 < grammar.settings.maxDepth) (rule : String) (rolls : Rolls) :
    let scanned := Scanned.ofRule rule
    ∃ root after, grammar.expandWith rule { resolveEscapes := false, preventRecursion := true }
        rolls = (.ok root, after) ∧
      after.grammar = grammar ∧ after.rolls = rolls ∧
      after.events = .entered rule 1 :: scanned.problems.map .noted ++ [.left 1] ∧
      root.children = scanned.segments.mapIdx (.ofSegment root.place) ∧
      (∀ child ∈ root.children, child.expanded = false) ∧
      root.errors = scanned.problems ∧
      root.text = String.join (root.children.map Node.source) ∧
      (.unclosedTag ∉ scanned.problems → .unclosedBracket ∉ scanned.problems →
        root.text = rule) := by
  intro scanned
  let shownEvents : List Event := .entered rule 1 :: scanned.problems.map .noted ++ [.left 1]
  have shows : previewNode (.root rule) (start grammar rolls) =
      (⟨.shown rule, none⟩, (start grammar rolls).record shownEvents) :=
    previewNode_root rule rfl room
  refine ⟨.shown rule, (start grammar rolls).record shownEvents, ?_, rfl, rfl, ?_, rfl, ?_,
    List.nil_append _, ?_, rule_of_closed⟩
  · simp only [Grammar.expandWith, Run.expandRule, Run.expandOnce, StateT.run, ↓reduceIte,
      Run.bind_apply, shows, Run.pure_apply]
    rfl
  · rw [events, record, List.reverse_append, List.reverse_reverse]
    rfl
  · intro child member
    obtain ⟨index, within, rfl⟩ := List.mem_mapIdx.mp member
    rfl
  · exact congrArg String.join (Node.sources_ofSegment ⟨0, 0⟩ scanned.segments).symm

/-- A grammar with room for one expansion only, which lost the rules of its one symbol. -/
def lostVerse : Grammar :=
  let declared := Symbol.declared "verse" (.ofAlternatives 1 ["dawn"])
  { symbols := [("verse", { declared with stack := [] })], settings := { maxDepth := 1 } }

/-- A push, a tag whose symbol lost its rules, an empty tag and an escaped mark: all of it is shown,
and only the empty tag is told. -/
theorem prevented_expansion_shows_rule_lostVerse :
    let rolls : Rolls := { stream := fun _ => default }
    let rule := "[verse:dusk]#[moon:new]verse.upper###, \\#1"
    0 < lostVerse.settings.maxDepth ∧ (Scanned.ofRule rule).problems = [.emptyTag 36] ∧
      ∃ root after, lostVerse.expandWith rule { resolveEscapes := false, preventRecursion := true }
          rolls = (.ok root, after) ∧
        after.grammar = lostVerse ∧ root.children.length = 4 ∧ root.errors = [.emptyTag 36] ∧
        root.text = rule := by
  intro rolls rule
  have scanned : Scanned.ofRule rule = ⟨[⟨.action, "verse:dusk"⟩,
      ⟨.tag, "[moon:new]verse.upper"⟩, ⟨.tag, ""⟩, ⟨.plain, ", \\#1"⟩], [.emptyTag 36]⟩ := by
    simp only [rule]
    cbv
  have room : 0 < lostVerse.settings.maxDepth := by decide
  obtain ⟨root, after, shows, grammar, _, _, children, _, errors, _, text⟩ :=
    prevented_expansion_shows_rule room rule rolls
  simp only [scanned] at children errors text
  refine ⟨room, congrArg Scanned.problems scanned, root, after, shows, grammar, ?_, errors, ?_⟩
  · rw [children, List.length_mapIdx]
    rfl
  · exact text (by decide) (by decide)

end TextGrammar
