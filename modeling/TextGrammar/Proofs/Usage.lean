import TextGrammar.Proofs.Clearing
import TextGrammar.Proofs.Parallel

/-! # Records of use are never read

Selections count uses and log who asked. Nothing reads either back: a view that hides the counters
and the logs is faithful, so whatever is done with two grammars that differ in them alone is
answered in the same way, draws the same rolls, and leaves grammars that again differ in them alone.
-/

namespace TextGrammar

open Expansion

namespace Symbol

/-- The symbol as if it had never been used. -/
def unused (symbol : Symbol) : Symbol :=
  { symbol.bare with base := symbol.base.clear, log := [] }

variable {one other : Symbol}

theorem unused_eq_iff : one.unused = other.unused ↔
    one.key = other.key ∧ one.base.clear = other.base.clear ∧ one.sets = other.sets ∧
      one.dynamic = other.dynamic := by
  simp only [unused, sets, bare, mk.injEq, true_and]

theorem unused_selectUnlogged (symbol : Symbol) (path : List String) (rolls : Rolls) :
    (symbol.selectUnlogged path rolls).symbol.unused = symbol.unused :=
  congrArg (fun bare : Symbol => { bare with base := bare.base.clear, log := [] })
    (bare_selectUnlogged symbol path rolls)

theorem unused_clear (symbol : Symbol) : symbol.clear.unused = symbol.unused.clear := by
  simp only [unused, bare, clear, List.map_cons, List.map_nil, RuleSet.clear_clear]

/-- Without its counters and its log, a symbol still shows all that is done with it. -/
theorem faithful_unused : Faithful unused where
  key same := (unused_eq_iff.mp same).1
  sets same := (unused_eq_iff.mp same).2.2.1
  push same set := by
    obtain ⟨key, base, sets, dynamic⟩ := unused_eq_iff.mp same
    exact unused_eq_iff.mpr ⟨key, base, congrArg (set.clear :: ·) sets, dynamic⟩
  drop same := by
    obtain ⟨key, base, sets, dynamic⟩ := unused_eq_iff.mp same
    refine unused_eq_iff.mpr ⟨key, base, ?_, dynamic⟩
    simpa only [Symbol.sets, bare, List.map_tail] using congrArg List.tail sets
  log same _ := same
  selectUnlogged same path rolls := by
    rw [unused_selectUnlogged, unused_selectUnlogged, same]

end Symbol

namespace Grammar

/-- The grammar as if it had never been used: its stacks stay, and so do those of its subgrammars,
but no counter and no log tells of a selection. -/
def unused (grammar : Grammar) : Grammar :=
  grammar.through Symbol.unused

mutual

theorem unused_clear : (grammar : Grammar) → grammar.clear.unused = grammar.unused.clear
  | ⟨symbols, modifiers, subgrammars, settings⟩ => by
    have own : (renewed symbols).map (fun (key, symbol) => (key, symbol.unused)) =
        renewed (symbols.map fun (key, symbol) => (key, symbol.unused)) := by
      simp only [renewed, List.filter_map, List.map_map, Function.comp_def, Symbol.unused_clear]
      rfl
    exact congrArg₂ (Grammar.mk · modifiers · settings) own
      (throughAll_unused_clearAll subgrammars)

theorem throughAll_unused_clearAll : (grammars : List Grammar) →
    throughAll Symbol.unused (clearAll grammars) = clearAll (throughAll Symbol.unused grammars)
  | [] => rfl
  | grammar :: rest =>
    congrArg₂ List.cons (unused_clear grammar) (throughAll_unused_clearAll rest)

end

end Grammar

theorem steady_unused : Engine.Steady Symbol.unused expandNode :=
  steady_expandNode Symbol.faithful_unused

theorem parallel_expandRule (rule : String) (options : ExpandOptions) :
    Parallel Symbol.unused Eq (Run.expandRule rule options) (Run.expandRule rule options) := by
  have expands : Parallel Symbol.unused Eq (Run.expandOnce (.root rule) options.preventRecursion)
      (Run.expandOnce (.root rule) options.preventRecursion) := by
    cases options.preventRecursion with
    | true => exact parallel_previewNode (.root rule)
    | false => exact steady_unused _ (Node.fresh_root rule)
  exact expands.andThen fun _ => .pure rfl

theorem parallel_answer (request : Request) :
    Parallel Symbol.unused Eq request.answer request.answer := by
  cases request with
  | expand rule options => exact (parallel_expandRule rule options).andThen fun _ => .pure rfl
  | select key origin =>
    have selects : Parallel Symbol.unused Eq (Engine.selectRule expandNode key origin)
        (Engine.selectRule expandNode key origin) :=
      Engine.parallel_selectRule Symbol.faithful_unused steady_unused id key
    exact selects.andThen fun _ => .pure rfl
  | activate action =>
    have ran := (Engine.inherited_parallel Symbol.faithful_unused steady_unused).activate
      .caller action
    exact ran.andThen fun _ => .pure rfl

theorem parallel_turn (turn : Turn) : Parallel Symbol.unused Eq turn.run turn.run := by
  cases turn with
  | ask request => exact parallel_answer request
  | release key =>
    exact (Parallel.takeOff Symbol.faithful_unused _ _ key).andThen fun _ => .pure rfl
  | push key alternatives =>
    exact (Parallel.push Symbol.faithful_unused _ _ key alternatives).andThen fun _ => .pure rfl
  | pop key => exact (Parallel.takeOff Symbol.faithful_unused _ _ key).andThen fun _ => .pure rfl
  | clear =>
    intro one other alike
    refine ⟨rfl, alike.withGrammar ?_⟩
    change one.grammar.clear.unused = other.grammar.clear.unused
    rw [Grammar.unused_clear, Grammar.unused_clear]
    exact congrArg Grammar.clear alike.grammar

theorem parallel_turns (turns : List Turn) :
    Parallel Symbol.unused Eq (Turn.runAll turns) (Turn.runAll turns) := by
  induction turns with
  | nil => exact .pure rfl
  | cons turn rest ih =>
    exact (parallel_turn turn).andThen fun _ => ih.andThen fun _ => .pure rfl

/-- Two sessions that differ in records of use alone. -/
structure Session.AlikeInUse (one other : Session) : Prop where
  grammar : one.grammar.unused = other.grammar.unused
  rolls : one.rolls = other.rolls

namespace Session.AlikeInUse

variable {one other : Session}

theorem start (alike : one.AlikeInUse other) :
    (Expansion.start one.grammar one.rolls).Alike Symbol.unused
      (.start other.grammar other.rolls) where
  grammar := alike.grammar
  rolls := alike.rolls
  limit := congrArg Settings.maxDepth (Grammar.settings_of_through alike.grammar)
  depth := rfl
  tripped := rfl

theorem operation (alike : one.AlikeInUse other) (operation : Operation) :
    (operation.run one).1 = (operation.run other).1 ∧
      (operation.run one).2.AlikeInUse (operation.run other).2 := by
  have settings := Grammar.settings_of_through alike.grammar
  -- What is asked of a context that is opened for it, parallel runs answer.
  have opened {α : Type} (answers : α → List Answer) {run : Run α}
      (parallel : Parallel Symbol.unused Eq run run) :
      answers (run (.start one.grammar one.rolls)).1 =
          answers (run (.start other.grammar other.rolls)).1 ∧
        (run (.start one.grammar one.rolls)).2.session.AlikeInUse
          (run (.start other.grammar other.rolls)).2.session := by
    obtain ⟨answer, left⟩ := parallel alike.start
    exact ⟨congrArg answers answer, left.grammar, left.rolls⟩
  cases operation with
  | expand rule =>
    simp only [Operation.run, Grammar.expand, settings]
    exact opened (fun result => [.tree result]) (parallel_expandRule rule _)
  | expandWith rule options =>
    exact opened (fun result => [.tree result]) (parallel_expandRule rule options)
  | flatten rule =>
    simp only [Operation.run, Grammar.flatten, Grammar.expand, settings]
    exact opened (fun result => [.text (result.map (·.text))]) (parallel_expandRule rule _)
  | selectRule key =>
    exact opened (fun report => [.report report])
      (Engine.parallel_selectRule Symbol.faithful_unused steady_unused id key)
  | push key alternatives =>
    exact ⟨rfl, Grammar.through_push Symbol.faithful_unused alike.grammar key alternatives,
      alike.rolls⟩
  | pop key =>
    simp only [Operation.run]
    rcases Grammar.through_pop Symbol.faithful_unused alike.grammar key with
      ⟨problem, fails, failsToo⟩ | ⟨taken, twinTaken, takes, takesToo, same⟩
    · simp only [fails, failsToo]
      exact ⟨trivial, alike⟩
    · simp only [takes, takesToo]
      exact ⟨trivial, same, alike.rolls⟩
  | clear =>
    refine ⟨rfl, ?_, alike.rolls⟩
    change one.grammar.clear.unused = other.grammar.clear.unused
    rw [Grammar.unused_clear, Grammar.unused_clear, alike.grammar]
  | context turns => exact opened id (parallel_turns turns)

end Session.AlikeInUse

/-- Whatever is done with two grammars that differ only in what is counted and logged of their use,
drawing from the same rolls, the answers are the same, texts, trees, problems and ambiguous tags
alike; the same rolls are drawn, and again the grammars differ only in the records of their use. -/
theorem operations_ignore_use {one other : Session} (alike : one.AlikeInUse other)
    (operations : List Operation) :
    (Operation.runAll one operations).1 = (Operation.runAll other operations).1 ∧
      (Operation.runAll one operations).2.AlikeInUse (Operation.runAll other operations).2 := by
  induction operations generalizing one other with
  | nil => exact ⟨rfl, alike⟩
  | cons operation rest ih =>
    obtain ⟨answer, next⟩ := alike.operation operation
    obtain ⟨answers, last⟩ := ih next
    exact ⟨congrArg₂ List.cons answer answers, last⟩

theorem operations_ignore_use_forecast :
    let rolls : Rolls := { stream := fun _ => default }
    let used := (Operation.runAll ⟨forecast, rolls⟩ [.expand "#walk#"]).2.grammar
    Session.AlikeInUse ⟨used, rolls⟩ ⟨forecast, rolls⟩ ∧
      (used.symbol? "walk").map (·.log) = some [some ⟨1, 0⟩] ∧
      (forecast.symbol? "walk").map (·.log) = some [] ∧
      (Operation.runAll ⟨used, rolls⟩ forecastUses).1 =
        (Operation.runAll ⟨forecast, rolls⟩ forecastUses).1 := by
  intro rolls used
  have unused : used.unused = forecast.unused := by
    simp only [used, rolls]
    cbv
  have logged : (used.symbol? "walk").map (·.log) = some [some ⟨1, 0⟩] := by
    simp only [used, rolls]
    cbv
  -- What the walk left is known well enough by now, and need not be computed again.
  clear_value used
  have alike : Session.AlikeInUse ⟨used, rolls⟩ ⟨forecast, rolls⟩ := ⟨unused, Eq.refl rolls⟩
  obtain ⟨answers, _⟩ := operations_ignore_use alike forecastUses
  exact ⟨alike, logged, by cbv, answers⟩

end TextGrammar
