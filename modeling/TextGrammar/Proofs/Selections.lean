import TextGrammar.Proofs.Chronicle
import TextGrammar.Proofs.Nesting

/-! # How selections stop

A selection goes from set to branch, evaluating a condition at each set. It stops at a set without a
condition, at a condition whose text leads into no branch, or when it has evaluated as many
conditions as the ceiling counts. Nothing is noted where it stops, so a selection that was cut short
by the count tells of the ceiling only if a node in one of its conditions was refused.
-/

namespace TextGrammar

open Engine Expansion

/-- A selection that may evaluate some number of conditions stopped where a path leads. -/
inductive Stopped (key : String) (limit : Nat) (path : List String) (later : Expansion) : Prop
  /-- No condition stands there. -/
  | settled (ends : later.condition? key path = none)
  /-- The condition there was evaluated, and its text leads into no branch. -/
  | astray {before : Expansion} {condition : String} {node : Node} (room : path.length < limit)
      (asks : before.condition? key path = some condition)
      (evaluates : expandNested expandNode condition before = (.ok node, later))
      (astray : later.leads key path node.text = false)
  /-- The condition there was not evaluated, for the count had run out. -/
  | cut (full : path.length = limit) (left : (later.condition? key path).isSome = true)

/-- The conditions of a selection come to an end at a set whose condition was not evaluated, for the
count had run out. -/
def CutShort (state : Expansion) (key : String) : Prop :=
  let ending := conditionPath expandNode key state.limit [] state
  ∃ path, ending.1.result = .ok path ∧ path.length = state.limit ∧
    (ending.2.condition? key path).isSome = true

theorem stopped_conditionPath {key : String} {steps : Nat} {path reached : List String}
    {state : Expansion}
    (through : (conditionPath expandNode key steps path state).1.result = .ok reached) :
    Stopped key (path.length + steps) reached
      (conditionPath expandNode key steps path state).2 := by
  induction steps generalizing path state with
  | zero =>
    cases through
    cases left : state.condition? key reached with
    | none => exact .settled left
    | some condition => exact .cut rfl (Option.isSome_of_eq_some left)
  | succ steps ih =>
    cases asks : state.condition? key path with
    | none =>
      rw [conditionPath_of_none expandNode steps asks] at through ⊢
      cases through
      exact .settled asks
    | some condition =>
      rw [conditionPath_of_some expandNode steps asks, Run.bind_apply] at through ⊢
      rcases evaluates : expandNested expandNode condition state with ⟨_ | node, later⟩
      · rw [evaluates] at through
        contradiction
      rw [evaluates] at through
      cases leads : later.leads key path node.text with
      | true =>
        -- The path gets longer by one as the steps get fewer, so the count stays.
        simp only [follow_of_leads expandNode steps leads, Run.bind_apply] at through ⊢
        have deeper := ih through
        rwa [List.length_append, List.length_singleton, Nat.add_right_comm] at deeper
      | false =>
        have strays := ne_true_of_eq_false leads
        simp only [follow_of_astray expandNode steps strays] at through ⊢
        cases through
        exact .astray (Nat.lt_add_of_pos_right (Nat.succ_pos steps)) asks evaluates leads

/-- Sets that nest no deeper than the count leave no condition when it runs out. -/
theorem not_nestsWithin_of_cutShort {state : Expansion} {key : String}
    (cut : CutShort state key) : ¬ state.grammar.NestsWithin state.limit := by
  intro within
  obtain ⟨path, _, full, left⟩ := cut
  obtain ⟨events, episode⟩ := leads_conditionPath plays_expandNode key state.limit [] state
  have ends := condition?_of_nestsWithin (episode.path.nestsWithin within) key full.ge
  rw [ends] at left
  contradiction

/-- What a selection that comes to a rule tells of the ceiling. It stops in one of three ways, the
last of which needs sets that nest deeper than the ceiling counts; and whichever it was, its
problems tell of the ceiling exactly if a node in one of its conditions hit it. -/
theorem selection_tells_limit_iff_tripped {state : Expansion} {key : String}
    {origin : Option Place} {rule : Option String} (going : state.tripped = false)
    (selected : (selectRule expandNode key origin state).1.result = .ok rule) :
    let conditions := conditionPath expandNode key state.limit [] state
    let after := selectRule expandNode key origin state
    (∃ path, conditions.1.result = .ok path ∧ Stopped key state.limit path conditions.2) ∧
      (CutShort state key → ¬ state.grammar.NestsWithin state.limit) ∧
      ((∃ limit raw, .recursionLimit limit raw ∈ after.1.problems) ↔ after.2.tripped = true) := by
  intro conditions after
  refine ⟨?_, not_nestsWithin_of_cutShort, ?_⟩
  · cases reached : conditions.1.result with
    | ok path =>
      have stopped := stopped_conditionPath reached
      rw [List.length_nil, Nat.zero_add] at stopped
      exact ⟨path, rfl, stopped⟩
    | error tag =>
      rw [selectRule_apply, Run.bind_apply, choose, reached] at selected
      contradiction
  · have told := reports_selectRule faithful_expandNode key origin state rule selected
    rw [told.hit, going, Bool.false_or]
    exact Problem.any_isLimit_iff.symm

/-- A set with two conditions, in a grammar whose ceiling counts one. -/
def nestedChoice : Grammar :=
  .ofWritten [
    ("x", .conditional "a" [("a", .conditional "b" [("b", .one "deep")] ["shallow"])] ["none"])]
    { maxDepth := 1 }

theorem cutShort_nestedChoice : CutShort (start nestedChoice { stream := fun _ => default }) "x" :=
  ⟨["a"], by cbv, by cbv, by cbv⟩

theorem selection_tells_limit_iff_tripped_nestedChoice :
    let state := start nestedChoice { stream := fun _ => default }
    let after := selectRule expandNode "x" none state
    state.tripped = false ∧ after.1.result = .ok (some "shallow") ∧ CutShort state "x" ∧
      ¬ state.grammar.NestsWithin state.limit ∧
      ¬ ∃ limit raw, .recursionLimit limit raw ∈ after.1.problems := by
  intro state after
  have selected : after.1.result = .ok (some "shallow") := by
    simp only [after, state]
    cbv
  have untripped : after.2.tripped = false := by
    simp only [after, state]
    cbv
  obtain ⟨_, deep, tells⟩ := selection_tells_limit_iff_tripped rfl selected
  refine ⟨rfl, selected, cutShort_nestedChoice, deep cutShort_nestedChoice, fun told => ?_⟩
  rw [tells.mp told] at untripped
  contradiction

/-- A selection may be cut short without a word. -/
theorem selection_cut_short_silently :
    ¬ ∀ (state : Expansion) (key : String) (origin : Option Place) (rule : Option String),
      state.tripped = false → (selectRule expandNode key origin state).1.result = .ok rule →
      CutShort state key →
      ∃ limit raw, .recursionLimit limit raw ∈ (selectRule expandNode key origin state).1.problems
    := by
  intro claim
  have told := claim (start nestedChoice { stream := fun _ => default }) "x" none (some "shallow")
    rfl (by cbv) cutShort_nestedChoice
  have silent : (selectRule expandNode "x" none
      (start nestedChoice { stream := fun _ => default })).1.problems = [] := by cbv
  rw [silent] at told
  obtain ⟨_, _, member⟩ := told
  exact absurd member List.not_mem_nil

end TextGrammar
