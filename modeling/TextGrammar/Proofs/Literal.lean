import TextGrammar.Proofs.Reading
import TextGrammar.Proofs.Segments

/-! # Finished text is literal

A text is literal if a scan that stands outside of tags and brackets passes over it and stands
there again: it may hold escaped delimiters, and marks within brackets that close before they open.
Texts put together from literal texts are literal. The plain text of a rule that is scanned without
a problem is, and so a tree that met no problem, and whose tags do not change what was written,
gives a literal text. Expanding it once more changes nothing.
-/

namespace TextGrammar

open Engine Expansion

/-- Where in a rule a cursor stands aside, a scan passes over a text from one cursor to another. -/
def Cursor.Crosses (start : Cursor) (chars : List Char) (stop : Cursor) : Prop :=
  ∀ position, ∃ further, ∀ reversed more,
    { start with position }.scan reversed (chars ++ more) =
      { stop with position := further }.scan (chars.reverse ++ reversed) more

/-- A text over which a scan passes outside of tags and brackets. -/
def Literal (text : String) : Prop :=
  Passes false 0 text.toList 0

namespace Cursor

variable {start stop : Cursor} {chars : List Char} {ch : Char}

theorem Crosses.concat (crosses : start.Crosses chars stop) (within : stop.boundary? ch = none) :
    start.Crosses (chars ++ [ch]) (stop.step ch) := by
  intro position
  obtain ⟨further, passes⟩ := crosses position
  refine ⟨further + ch.utf8Size, fun reversed more => ?_⟩
  have here : { stop with position := further }.boundary? ch = none := within
  rw [List.append_assoc, passes, List.singleton_append, scan_within here, step_at,
    List.reverse_append, List.reverse_singleton, List.singleton_append, List.cons_append]

theorem literal_of_crosses (crosses : Crosses {} chars stop) (stands : stop.At 0 false) :
    Literal (.ofList chars) := by
  intro cursor begins
  obtain ⟨further, passes⟩ := crosses cursor.position
  refine ⟨{ stop with position := further }, ⟨stands.depth, stands.inTag, stands.escaped⟩, ?_⟩
  rw [String.toList_ofList, begins.eq]
  exact passes

/-- A scan comes out of tags and brackets only where a segment ends. -/
theorem outside_of_step (within : stop.boundary? ch = none) (noTag : (stop.step ch).inTag = false)
    (outside : (stop.step ch).depth ≤ 0) : stop.inTag = false ∧ stop.depth ≤ 0 := by
  simp only [boundary?, step] at within noTag outside
  split_ifs at within noTag outside <;> grind

theorem Ends.before (ends : stop.Ends ch .plain) : stop.At 0 false := by
  cases ends with
  | actionOpens before | tagOpens before => exact before

/-- Behind the end of a segment a scan that is outside of tags and brackets stands at depth zero. -/
theorem Ends.after {kind : SegmentKind} (ends : stop.Ends ch kind)
    (noTag : (stop.step ch).inTag = false) (outside : (stop.step ch).depth ≤ 0) :
    (stop.step ch).At 0 false := by
  cases ends with
  | actionOpens _ after => exact absurd (after.depth ▸ outside) (by decide)
  | tagOpens _ after => exact absurd (noTag.symm.trans after.inTag) Bool.false_ne_true
  | actionCloses _ after | tagCloses _ after => exact after

theorem Ends.unescaped {kind : SegmentKind} (ends : stop.Ends ch kind) :
    (stop.step ch).escaped = false := by
  cases ends with
  | actionOpens _ after | tagOpens _ after | actionCloses _ after | tagCloses _ after =>
    exact after.escaped

end Cursor

/-- What plain text in a rule comes to: what is finished is literal, and outside of tags and
brackets the scan passed over what is open. -/
structure Reading.Literal (reading : Reading) : Prop where
  plain : ∀ segment ∈ reading.done.segments, segment.kind = .plain → TextGrammar.Literal segment.raw
  escaped : reading.cursor.escaped = endsUnpaired reading.opened.reverse
  outside : reading.cursor.inTag = false → reading.cursor.depth ≤ 0 →
    Cursor.Crosses {} reading.opened.reverse reading.cursor

theorem Cursor.crosses_nil {cursor : Cursor} (stands : cursor.At 0 false) :
    Crosses {} [] cursor := by
  intro position
  refine ⟨position, fun reversed more => ?_⟩
  rw [stands.eq]
  rfl

namespace Reading

theorem literal_step {reading : Reading} (literal : reading.Literal) (ch : Char) :
    (reading.step ch).Literal := by
  cases ends : reading.cursor.boundary? ch with
  | none =>
    rw [step_within ends]
    refine ⟨literal.plain, ?_, fun noTag outside => ?_⟩
    · rw [List.reverse_cons, endsUnpaired_concat, ← literal.escaped]
      exact Cursor.escaped_step _ _
    · obtain ⟨noTag, outside⟩ := Cursor.outside_of_step ends noTag outside
      rw [List.reverse_cons]
      exact (literal.outside noTag outside).concat ends
  | some kind =>
    have piece := Cursor.ends_of_boundary ends
    rw [step_boundary ends]
    refine ⟨List.forall_mem_append.mpr ⟨literal.plain, fun segment member plain => ?_⟩,
      piece.unescaped, fun noTag outside => Cursor.crosses_nil (piece.after noTag outside)⟩
    cases Scanned.eq_of_mem_cut member
    cases plain
    have before := piece.before
    exact Cursor.literal_of_crosses (literal.outside before.inTag (le_of_eq before.depth)) before

theorem literal_upTo (chars : List Char) : (upTo chars).Literal := by
  induction chars using List.reverseRecOn with
  | nil => exact ⟨List.forall_mem_nil _, rfl, fun _ _ => Cursor.crosses_nil ⟨rfl, rfl, rfl⟩⟩
  | append_singleton chars ch ih =>
    rw [upTo_concat]
    exact literal_step ih ch

end Reading

theorem Cursor.closed_of_leftOpen {cursor : Cursor} (closed : cursor.leftOpen = []) :
    cursor.inTag = false ∧ cursor.depth = 0 := by
  simp only [leftOpen, List.append_eq_nil_iff, ite_eq_right_iff, List.cons_ne_self, imp_false,
    Bool.not_eq_true, not_lt] at closed
  obtain ⟨⟨noTag, above⟩, below⟩ := closed
  exact ⟨noTag, le_antisymm above below⟩

/-- The plain text of a rule without problems is literal, unless its end would escape what comes
next. -/
theorem literal_of_plain {rule : String} (sound : (Scanned.ofRule rule).problems = [])
    {segment : Segment} (member : segment ∈ (Scanned.ofRule rule).segments)
    (plain : segment.kind = .plain) (paired : endsUnpaired segment.raw.toList = false) :
    Literal segment.raw := by
  have literal := Reading.literal_upTo rule.toList
  rw [Reading.ofRule_eq_finish, Reading.segments_finish] at member
  rw [Reading.ofRule_eq_finish, Reading.problems_finish, List.append_eq_nil_iff] at sound
  obtain ⟨noTag, level⟩ := Cursor.closed_of_leftOpen sound.2
  rcases List.mem_append.mp member with finished | last
  · exact literal.plain segment finished plain
  · -- The text at the end of the rule: nothing is open there, and nothing is escaped.
    obtain ⟨_, rfl⟩ := Segment.eq_of_mem_plainOf last
    rw [String.toList_ofList] at paired
    exact Cursor.literal_of_crosses (literal.outside noTag (le_of_eq level))
      ⟨level, noTag, literal.escaped.trans paired⟩

namespace Literal

theorem empty : Literal "" :=
  .nil false 0

theorem append {first second : String} (literal : Literal first) (next : Literal second) :
    Literal (first ++ second) := by
  rw [Literal, String.toList_append]
  exact Passes.append literal next

theorem join {texts : List String} (literal : ∀ text ∈ texts, Literal text) :
    Literal (String.join texts) := by
  induction texts with
  | nil => exact empty
  | cons text rest ih =>
    rw [String.join_cons]
    obtain ⟨first, others⟩ := List.forall_mem_cons.mp literal
    exact first.append (ih others)

variable {text : String} (literal : Literal text)
include literal

/-- A scan finds nothing in a literal text. -/
theorem ofRule_eq : Scanned.ofRule text = ⟨Segment.plainOf text.toList, []⟩ := by
  obtain ⟨next, stands, passes⟩ := literal {} ⟨rfl, rfl, rfl⟩
  have whole := passes [] []
  rw [List.append_nil, List.append_nil, stands.eq] at whole
  rw [Scanned.ofRule, whole, Cursor.scan, Scanned.cut_plain, List.reverse_reverse, List.append_nil]
  rfl

theorem segments_eq : (Scanned.ofRule text).segments = Segment.plainOf text.toList :=
  congrArg Scanned.segments literal.ofRule_eq

theorem problems_eq : (Scanned.ofRule text).problems = [] :=
  congrArg Scanned.problems literal.ofRule_eq

end Literal

namespace Engine

/-- Plain text is copied, wherever its node stands, and nothing else happens. -/
theorem expandEach_plainOf (place : Place) (chars : List Char) (state : Expansion) :
    ∃ nodes, expandEach expandNode ((Segment.plainOf chars).mapIdx (.ofSegment place)) state =
      (⟨nodes, [], .ofList chars, none⟩, state) := by
  cases chars with
  | nil => exact ⟨[], rfl⟩
  | cons ch rest =>
    have copied : expandNode (.ofSegment place 0 ⟨.plain, .ofList (ch :: rest)⟩) state = _ :=
      (expandNode_apply _ _).trans (withRoom_plain _ rfl rfl)
    simp only [Segment.plainOf, List.mapIdx_cons, List.mapIdx_nil, expandEach, Run.bind_apply,
      copied, Run.pure_apply, String.append_empty]
    exact ⟨_, rfl⟩

/-- Where the rule found for a node is literal, the node gets it for its text, and nothing else
happens. -/
theorem expandChildren_literal {text : String} (literal : Literal text) (node : Node)
    (state : Expansion) :
    ∃ outcome, expandChildren expandNode node text state = (outcome, state) ∧
      outcome.fatal = none ∧ outcome.node.text = text ∧ outcome.node.errors = node.errors ∧
      outcome.node.modifiers = node.modifiers := by
  obtain ⟨nodes, children⟩ := expandEach_plainOf node.place text.toList state
  rw [← literal.segments_eq] at children
  have ran : expandEach expandNode (node.adopt text (Scanned.ofRule text)).children
      (Run.note (Scanned.ofRule text).problems state).2 =
        (⟨nodes, [], .ofList text.toList, none⟩, state) := by
    rw [literal.problems_eq]
    exact children
  simp only [expandChildren, Run.bind_apply, ran, Run.pure_apply, String.ofList_toList]
  refine ⟨_, rfl, rfl, rfl, ?_, rfl⟩
  change node.errors ++ (Scanned.ofRule text).problems ++ [] = _
  rw [literal.problems_eq, List.append_nil, List.append_nil]

/-- Where there is room for it, a literal text expands to itself, and only the journal tells. -/
theorem expandNode_literal {text : String} (literal : Literal text) {state : Expansion}
    (going : state.tripped = false) (room : state.depth < state.limit) :
    ∃ node events, expandNode (.root text) state = (⟨node, none⟩, state.record events) ∧
      node.text = text ∧ node.errors = [] := by
  obtain ⟨⟨node, fatal⟩, ran, through, finished, errors, _⟩ :=
    expandChildren_literal literal (Node.root text).begun (state.inside text)
  cases through
  have body : expandBody expandNode (Node.root text).begun (state.inside text) = _ := ran
  have opens := (expandNode_apply (.root text) state).trans
    (withRoom_room (expandBody expandNode) rfl nofun going room)
  rw [Run.bind_apply, show (Node.root text).raw = text from rfl, body] at opens
  exact ⟨node, [.entered text (state.depth + 1), .left (state.depth + 1)], opens, finished, errors⟩

end Engine

/-- A literal text expands to itself, but for its escape markers. -/
theorem expandWith_literal {text : String} (literal : Literal text) {grammar : Grammar}
    (room : 0 < grammar.settings.maxDepth) (resolve : Bool) (rolls : Rolls) :
    ∃ node after, grammar.expandWith text { resolveEscapes := resolve } rolls = (.ok node, after) ∧
      node.text = finished resolve text ∧ node.errors = [] ∧ after.rolls = rolls ∧
      after.grammar = grammar := by
  have going : (start grammar rolls).tripped = false := rfl
  obtain ⟨node, events, ran, rfl, errors⟩ := expandNode_literal literal going room
  refine ⟨if resolve then node.resolveEscapes else node, (start grammar rolls).record events, ?_,
    ?_, ?_, rfl, rfl⟩
  · simp only [Grammar.expandWith, Run.expandRule, Run.expandOnce, StateT.run, Bool.false_eq_true,
      ↓reduceIte, Run.bind_apply, ran, Run.pure_apply]
    rfl
  · cases resolve <;> rfl
  · cases resolve <;> exact errors

end TextGrammar
