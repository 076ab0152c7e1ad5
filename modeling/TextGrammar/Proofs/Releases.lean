import TextGrammar.Proofs.Ledger
import TextGrammar.Proofs.Runs

/-! # What the end of a tag takes off

At its end a tag takes as many sets off a stack as its head pushed onto it, whatever is on top by
then. These are the sets it pushed exactly if they lie on top: other sets pushed onto them have been
taken off again, and none of them was taken off by somebody else.
-/

namespace TextGrammar

/-- What an event within a tag does to the stack of a name. The tag's own expansion is at the first
level. -/
def Event.move? (key : String) (level : Nat) : Event → Option Move
  | .pushed site other set =>
    if other = key then
      some (if site = .tagHead ∧ level = 1 then .own set.clear else .free set.clear)
    else none
  | .popped other (some _) => if other = key then some .take else none
  | .released other (some _) =>
    if other = key then some (if level = 1 then .undo else .take) else none
  | _ => none

theorem Event.Quiet.move? {event : Event} (calm : event.Quiet) (key : String) (level : Nat) :
    event.move? key level = none := by
  cases event <;> first | rfl | exact calm.elim

/-- The moves on the stack of a name that some events make, from a level on. -/
def movesOn (key : String) : Nat → List Event → List Move
  | _, [] => []
  | level, event :: rest => (event.move? key level).toList ++ movesOn key (event.relevel level) rest

theorem movesOn_append (key : String) (level : Nat) (first second : List Event) :
    movesOn key level (first ++ second) =
      movesOn key level first ++ movesOn key (first.foldl Event.relevel level) second := by
  induction first generalizing level with
  | nil => rfl
  | cons event rest ih =>
    simp only [List.cons_append, movesOn, ih, List.foldl_cons, List.append_assoc]

theorem movesOn_of_quiet (key : String) (level : Nat) {events : List Event}
    (calm : ∀ event ∈ events, event.Quiet) : movesOn key level events = [] := by
  induction events generalizing level with
  | nil => rfl
  | cons event rest ih =>
    obtain ⟨quiet, calm⟩ := List.forall_mem_cons.mp calm
    rw [movesOn, quiet.move?, ih _ calm]
    rfl

theorem movesOn_cons_activated (key : String) (level : Nat) (site : Site) (action : Action)
    (events : List Event) :
    movesOn key level (.activated site action :: events) = movesOn key level events := rfl

/-- The ledger keeps the stack. -/
theorem sets_movesOn (key : String) (level : Nat) (events : List Event) (ledger : Ledger) :
    ((movesOn key level events).foldl Ledger.move ledger).sets =
      events.foldl (Event.restack key) ledger.sets := by
  induction events generalizing level ledger with
  | nil => rfl
  | cons event rest ih =>
    have kept : ((event.move? key level).toList.foldl Ledger.move ledger).sets =
        event.restack key ledger.sets := by
      cases event with
      | pushed site other set =>
        simp only [Event.move?, Event.restack]
        split
        · split <;> rfl
        · rfl
      | popped other set =>
        cases set with
        | none => rfl
        | some set =>
          simp only [Event.move?, Event.restack]
          split
          · exact List.map_tail
          · rfl
      | released other set =>
        cases set with
        | none => rfl
        | some set =>
          simp only [Event.move?, Event.restack]
          split
          · split <;> exact List.map_tail
          · rfl
      | _ => rfl
    rw [movesOn, List.foldl_append, ih, kept, List.foldl_cons]

namespace Expansion

variable {keys : List String} {source target : Expansion} {events : List Event}

/-- At its end a tag takes off a set for each push of its head, as long as there are any. -/
theorem Closing.moves_undo (closing : Closing keys source events target) (key : String) :
    movesOn key 1 events =
      List.replicate (min (keys.count key) (source.grammar.setsOn key).length) .undo := by
  induction closing with
  | done state => rw [List.count_nil, Nat.zero_min]; rfl
  | noted step _ ih =>
    rw [step.setsOn key] at ih
    exact ih
  | @released source middle target other set keys events step _ ih =>
    rw [step.setsOn key] at ih
    by_cases same : other = key
    · subst other
      rw [List.count_cons_self]
      cases set with
      | none =>
        have empty := step.released_none_iff.mp rfl
        simp only [empty, Event.restack, List.length_nil, Nat.min_zero] at ih ⊢
        exact ih
      | some set =>
        have found : source.grammar.setsOn key ≠ [] := fun empty =>
          Option.some_ne_none set (step.released_none_iff.mpr empty)
        obtain ⟨top, below, stack⟩ := List.exists_cons_of_ne_nil found
        simp only [stack, Event.restack, ↓reduceIte, List.tail_cons] at ih
        rw [stack, List.length_cons, Nat.add_min_add_right, List.replicate_succ, ← ih]
        simp only [movesOn, Event.move?, ↓reduceIte, Option.toList_some, List.singleton_append,
          Event.relevel]
    · rw [List.count_cons_of_ne same]
      cases set <;>
        simpa only [movesOn, Event.move?, Event.relevel, Event.restack, same, ↓reduceIte,
          Option.toList_none, List.nil_append] using ih

/-- To others, what the end of a tag takes off is just taken. -/
theorem Closing.moves_take (closing : Closing keys source events target) (key : String)
    (level : Nat) : ∀ move ∈ movesOn key (level + 2) events, move = .take := by
  induction closing with
  | done state => exact List.forall_mem_nil _
  | noted step _ ih => exact ih
  | @released source middle target other set keys events step _ ih =>
    cases set with
    | none => exact ih
    | some set =>
      simp only [movesOn, Event.move?, Event.relevel]
      split
      · exact List.forall_mem_cons.mpr ⟨if_neg (by omega), ih⟩
      · exact ih

/-- Within an episode at the first level the head of the tag makes the pushes kept, and deeper down
none. -/
theorem Episode.inside (episode : Episode keys source events target) (key : String) (level : Nat) :
    Inside (movesOn key (level + 1) events) (if level = 0 then keys.count key else 0) := by
  induction episode generalizing level with
  | done state =>
    rw [List.count_nil, ite_self]
    exact .nil
  | @append source middle target keys more first second before _ left right =>
    rw [movesOn_append, before.level, List.count_append]
    have both := (left level).append (right level)
    by_cases top : level = 0
    · simpa only [top, ↓reduceIte] using both
    · simpa only [top, ↓reduceIte, Nat.add_zero] using both
  | quiet step calm =>
    rw [List.count_nil, ite_self, movesOn, calm.move?]
    exact .nil
  | @pop source middle target site other set begins pops =>
    rw [List.count_nil, ite_self]
    refine .takes fun move member => ?_
    cases set with
    | none => exact absurd member List.not_mem_nil
    | some set =>
      simp only [movesOn, Event.move?, Option.toList_none, List.nil_append,
        List.append_nil] at member
      split at member
      · exact List.mem_singleton.mp member
      · exact absurd member List.not_mem_nil
  | @headPush source middle ready target other rule set events begins episode pushes parts =>
    have parts := parts level
    rw [List.count_nil, ite_self] at parts
    have push : Inside (movesOn key (level + 1) [.pushed .tagHead other set])
        (if level = 0 then [other].count key else 0) := by
      by_cases same : other = key
      · by_cases top : level = 0
        · simp only [movesOn, Event.move?, same, top, ↓reduceIte, and_self,
            List.count_singleton_self]
          exact .own _
        · simp only [movesOn, Event.move?, same, top, ↓reduceIte, true_and, Nat.add_eq_right]
          exact .free _
      · rw [List.count_eq_zero_of_not_mem (by simpa using Ne.symm same), ite_self]
        simp only [movesOn, Event.move?, same, ↓reduceIte]
        exact .nil
    rw [movesOn_cons_activated, movesOn_append, episode.level]
    simpa only [Nat.zero_add] using parts.append push
  | @freePush source middle ready target site other rule set events free begins episode pushes
      parts =>
    have parts := parts level
    rw [List.count_nil, ite_self] at parts ⊢
    have push : Inside (movesOn key (level + 1) [.pushed site other set]) 0 := by
      simp only [movesOn, Event.move?, free, false_and, ↓reduceIte, List.append_nil]
      split
      · exact .free _
      · exact .nil
    rw [movesOn_cons_activated, movesOn_append, episode.level]
    exact parts.append push
  | @nested source middle ready undone target raw depth bottom keys events closing enters episode
      closes leaves inside =>
    have deeper := inside (level + 1)
    rw [if_neg (Nat.succ_ne_zero level)] at deeper
    rw [List.count_nil, ite_self]
    change Inside (movesOn key (level + 2) (events ++ (closing ++ [.left bottom]))) 0
    rw [movesOn_append, episode.level, movesOn_append, closes.level]
    exact deeper.append ((Inside.takes (closes.moves_take key level)).append .nil)

/-- What the expansion of a node does to a stack: the moves inside, and at the end as many undoings
as its head made pushes, or fewer if the stack runs out. -/
theorem Visit.moves (visit : Visit source events target) (key : String) :
    ∃ moves made count, movesOn key 0 events = moves ++ List.replicate count .undo ∧
      Inside moves made ∧ count = min made
        (moves.foldl Ledger.move (.opening (source.grammar.setsOn key))).stack.length := by
  cases visit with
  | still path calm =>
    exact ⟨[], 0, 0, movesOn_of_quiet key 0 calm, .nil, (Nat.zero_min _).symm⟩
  | @opened middle ready undone _ raw depth bottom keys events closing enters inside closes
      leaves =>
    refine ⟨movesOn key 1 events, keys.count key, _, ?_, inside.inside key 0, rfl⟩
    have entered : middle.grammar.setsOn key = source.grammar.setsOn key := enters.setsOn key
    have sets := sets_movesOn key 1 events (.opening (source.grammar.setsOn key))
    rw [Ledger.sets_opening, ← entered, ← inside.path.setsOn_eq] at sets
    have length := congrArg List.length sets
    rw [Ledger.sets, List.length_map] at length
    change movesOn key 1 (events ++ (closing ++ [.left bottom])) = _
    rw [movesOn_append, inside.level, movesOn_append, closes.moves_undo, ← entered, length]
    simp only [movesOn, Event.move?, Option.toList_none, List.append_nil]

/-- The events that lead from one state to a later one. -/
def since (state later : Expansion) : List Event :=
  later.events.drop state.events.length

theorem since_eq (path : Path Step source events target) : source.since target = events := by
  rw [since, path.events_eq, List.drop_left]

end Expansion

open Expansion

namespace Node

/-- The moves on the stack of a name while a node is expanded. -/
def moves (node : Node) (state : Expansion) (key : String) : List Move :=
  movesOn key 0 (state.since (expandNode node state).2)

/-- The ledger of a stack over the expansion of a node. -/
def ledger (node : Node) (state : Expansion) (key : String) : Ledger :=
  (node.moves state key).foldl Ledger.move (.opening (state.grammar.setsOn key))

/-- How the sets stand that the head of a node pushed, when the node ends. -/
def standing (node : Node) (state : Expansion) (key : String) : Standing :=
  (node.moves state key).foldl Standing.move .unused

end Node

/-- What the end of a tag takes off a stack, for every tag in every state of a grammar. The ledger
keeps the sets that are in fact on the stack, and the tag takes off exactly the sets that its head
pushed just when these stand settled: whatever was pushed between or over them is gone again, and
nobody else took one of them. -/
theorem releases_exact_iff_settled (parent : Place) (index : Nat) (raw : String)
    (state : Expansion) (key : String) :
    let tag := Node.ofSegment parent index ⟨.tag, raw⟩
    (tag.ledger state key).sets = (expandNode tag state).2.grammar.setsOn key ∧
      ((tag.ledger state key).Exact ↔ (tag.standing state key).Settled) := by
  intro tag
  obtain ⟨events, visit⟩ := plays_expandNode tag state (Node.fresh_ofSegment _ _ _)
  have path := visit.episode.path
  have told : tag.moves state key = movesOn key 0 events := by rw [Node.moves, since_eq path]
  constructor
  · rw [Node.ledger, told, sets_movesOn, Ledger.sets_opening, ← path.setsOn_eq]
  · obtain ⟨moves, made, count, split, inside, undoes⟩ := visit.moves key
    rw [Node.ledger, Node.standing, told, split]
    exact Ledger.exact_iff_settled _ inside undoes

/-- A rule that pushes onto a name and leaves it at that. -/
def leftover : Grammar :=
  .ofWritten [("b", .one "[x:2]")] {}

/-- A tag does not always take off what its head pushed: here it takes off the set that its rule
pushed, and its own stays. -/
theorem release_takes_free_push :
    ¬ ∀ (parent : Place) (index : Nat) (raw : String) (state : Expansion) (key : String),
      ((Node.ofSegment parent index ⟨.tag, raw⟩).ledger state key).Exact := by
  intro claim
  have exact := claim ⟨0, 0⟩ 0 "[x:1]b" (.start leftover { stream := fun _ => default }) "x"
  have left : (((Node.ofSegment ⟨0, 0⟩ 0 ⟨.tag, "[x:1]b"⟩).ledger
      (.start leftover { stream := fun _ => default }) "x").stack.all fun held => !held.own) =
        false := by cbv
  rw [List.all_eq_false] at left
  obtain ⟨held, member, own⟩ := left
  exact own (congrArg not (exact.gone held member))

end TextGrammar
