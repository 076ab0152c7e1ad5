import TextGrammar.Proofs.Runs

/-! # Sessions

A grammar is used over and over: rules are expanded, names selected, symbols pushed, popped and
cleared, and a context may stay open for several requests. Every operation gives an answer and
leaves a grammar and rolls to the next one, whether it succeeds or fails.
-/

namespace TextGrammar

open Expansion

/-- What an operation answers. -/
inductive Answer
  | tree (result : Except AmbiguousTag Node)
  | text (result : Except AmbiguousTag String)
  | report (report : Report (Option String))
  /-- The problems of taking a set off; there are none if one was taken off. -/
  | problems (problems : List Problem)
  | done

/-- The answer to a request. That to an action names the symbol pushed onto, if one was: with this
name a caller may undo the push. -/
def Request.answer : Request → Run Answer
  | .expand rule options => do pure (.tree (← Run.expandRule rule options))
  | .select key origin => do pure (.report (← Engine.selectRule expandNode key origin))
  | .activate action => do pure (.report (← Run.activate action))

theorem Request.answer_after (request : Request) (state : Expansion) :
    (request.answer state).2 = request.after state := by
  cases request <;> rfl

/-- One turn of a context: a request, the undoing of a push that an action made, or a change of the
context's grammar from outside. -/
inductive Turn
  | ask (request : Request)
  | release (key : String)
  | push (key : String) (alternatives : List String)
  | pop (key : String)
  | clear

/-- Clear the grammar of a context; its depth and its mark stay. -/
def Run.clear : Run Unit :=
  modify fun state => { state with grammar := state.grammar.clear }

/-- Take a turn. -/
def Turn.run : Turn → Run Answer
  | .ask request => request.answer
  | .release key => do pure (.problems (← Run.release key))
  | .push key alternatives => do
    Run.push .caller key alternatives
    pure .done
  | .pop key => do pure (.problems (← Run.pop key))
  | .clear => do
    Run.clear
    pure .done

/-- Take turns in order. -/
def Turn.runAll : List Turn → Run (List Answer)
  | [] => pure []
  | turn :: rest => do
    let answer ← turn.run
    let answers ← runAll rest
    pure (answer :: answers)

/-- A grammar in use, with the rolls it will draw. -/
structure Session where
  grammar : Grammar
  rolls : Rolls

/-- What a context leaves to its session. -/
def Expansion.session (state : Expansion) : Session :=
  ⟨state.grammar, state.rolls⟩

/-- What may be done with a grammar. -/
inductive Operation
  | expand (rule : String)
  | expandWith (rule : String) (options : ExpandOptions)
  | flatten (rule : String)
  | selectRule (key : String)
  | push (key : String) (alternatives : List String)
  | pop (key : String)
  | clear
  | context (turns : List Turn)

/-- The answers of an operation, and the session after it. -/
def Operation.run (session : Session) : Operation → List Answer × Session
  | .expand rule =>
    let (result, state) := session.grammar.expand rule session.rolls
    ([.tree result], state.session)
  | .expandWith rule options =>
    let (result, state) := session.grammar.expandWith rule options session.rolls
    ([.tree result], state.session)
  | .flatten rule =>
    let (result, state) := session.grammar.flatten rule session.rolls
    ([.text result], state.session)
  | .selectRule key =>
    let (report, state) := session.grammar.selectRule key session.rolls
    ([.report report], state.session)
  | .push key alternatives =>
    ([.done], { session with grammar := session.grammar.push key alternatives })
  | .pop key =>
    match session.grammar.pop key with
    | .ok (_, grammar) => ([.problems []], { session with grammar })
    | .error problem => ([.problems [problem]], session)
  | .clear => ([.done], { session with grammar := session.grammar.clear })
  | .context turns =>
    let (answers, state) := (Turn.runAll turns).run (.start session.grammar session.rolls)
    (answers, state.session)

/-- The answers of operations in order, and the session after them. -/
def Operation.runAll (session : Session) : List Operation → List (List Answer) × Session
  | [] => ([], session)
  | operation :: rest =>
    let (answers, next) := operation.run session
    let (others, last) := runAll next rest
    (answers :: others, last)

/-- What expansions, pushes, pops and clearing keep of a grammar, every operation keeps. -/
structure Kept (holds : Grammar → Grammar → Prop) : Prop where
  refl (grammar : Grammar) : holds grammar grammar
  trans {first second third : Grammar} (early : holds first second) (late : holds second third) :
    holds first third
  step {source target : Expansion} {event : Event} (step : Step source event target) :
    holds source.grammar target.grammar
  clear (grammar : Grammar) : holds grammar grammar.clear

namespace Kept

variable {holds : Grammar → Grammar → Prop} (kept : Kept holds)
include kept

theorem path {source target : Expansion} {events : List Event}
    (path : Path Step source events target) : holds source.grammar target.grammar :=
  path.relate (fun s t => holds s.grammar t.grammar) (fun s => kept.refl s.grammar) kept.trans
    kept.step

theorem leads {keys : List String} {source target : Expansion}
    (leads : Leads keys source target) : holds source.grammar target.grammar := by
  obtain ⟨_, episode⟩ := leads
  exact kept.path episode.path

theorem request (request : Request) (state : Expansion) :
    holds state.grammar (request.after state).grammar :=
  kept.leads (leads_request request state)

theorem takeOff {event : Option RuleSet → Event} {key : String}
    (kind : event = .popped key ∨ event = .released key) (state : Expansion) :
    holds state.grammar (Run.takeOff event key state).2.grammar := by
  obtain ⟨_, middle, taken, notes⟩ := Run.takeOff_steps kind state
  have after := kept.step taken
  rw [notes]
  exact after

theorem turn (turn : Turn) (state : Expansion) :
    holds state.grammar (turn.run state).2.grammar := by
  cases turn with
  | ask request => exact request.answer_after state ▸ kept.request request state
  | release key => exact kept.takeOff (.inr rfl) state
  | push key alternatives => exact kept.step (.pushed state .caller key alternatives)
  | pop key => exact kept.takeOff (.inl rfl) state
  | clear => exact kept.clear state.grammar

theorem turns (turns : List Turn) (state : Expansion) :
    holds state.grammar (Turn.runAll turns state).2.grammar := by
  induction turns generalizing state with
  | nil => exact kept.refl state.grammar
  | cons turn rest ih => exact kept.trans (kept.turn turn state) (ih _)

theorem operation (session : Session) (operation : Operation) :
    holds session.grammar (operation.run session).2.grammar := by
  have begun (rule : String) (options : ExpandOptions) :=
    kept.request (.expand rule options) (start session.grammar session.rolls)
  cases operation with
  | expand rule => exact begun rule { resolveEscapes := session.grammar.settings.resolveEscapes }
  | expandWith rule options => exact begun rule options
  | flatten rule => exact begun rule { resolveEscapes := session.grammar.settings.resolveEscapes }
  | selectRule key => exact kept.request (.select key none) (start session.grammar session.rolls)
  | push key alternatives =>
    exact kept.step (.pushed (start session.grammar session.rolls) .caller key alternatives)
  | pop key =>
    simp only [Operation.run]
    cases popped : session.grammar.pop key with
    | error problem => exact kept.refl session.grammar
    | ok outcome =>
      have taken : Step (start session.grammar session.rolls) (.popped key (some outcome.1)) _ :=
        .took (.inl rfl) popped
      exact kept.step taken
  | clear => exact kept.clear session.grammar
  | context turns => exact kept.turns turns (start session.grammar session.rolls)

theorem operations (session : Session) (operations : List Operation) :
    holds session.grammar (Operation.runAll session operations).2.grammar := by
  induction operations generalizing session with
  | nil => exact kept.refl session.grammar
  | cons operation rest ih => exact kept.trans (kept.operation session operation) (ih _)

end Kept

end TextGrammar
