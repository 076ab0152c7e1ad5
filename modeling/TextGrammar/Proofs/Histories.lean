import TextGrammar.Proofs.Sessions

/-! # What happens in a session

What happens in a session is a chain of steps, from one context to the next: a context that is
opened takes up the grammar and the rolls as they are, and leaves them as they are then. As long as
nothing is cleared, the events of the chain tell what became of the logs. A log grows by one place
for each selection that its symbol is asked for, and those of subgrammars stay.
-/

namespace TextGrammar

open Expansion

/-- Whether a turn clears the grammar. -/
def Turn.clears : Turn → Bool
  | .clear => true
  | _ => false

/-- Whether an operation clears the grammar. -/
def Operation.clears : Operation → Bool
  | .clear => true
  | .context turns => turns.any Turn.clears
  | _ => false

/-- What happens in an operation, in order. -/
def Operation.events (session : Session) : Operation → List Event
  | .expand rule => (session.grammar.expand rule session.rolls).2.events
  | .expandWith rule options => (session.grammar.expandWith rule options session.rolls).2.events
  | .flatten rule => (session.grammar.flatten rule session.rolls).2.events
  | .selectRule key => (session.grammar.selectRule key session.rolls).2.events
  | .push key alternatives => [.pushed .caller key (session.grammar.pushedSet alternatives)]
  | .pop key =>
    match session.grammar.pop key with
    | .ok (set, _) => [.popped key (some set)]
    | .error _ => [.popped key none]
  | .clear => []
  | .context turns => ((Turn.runAll turns).run (.start session.grammar session.rolls)).2.events

/-- What happens in operations, in order. -/
def Operation.eventsAll (session : Session) : List Operation → List Event
  | [] => []
  | operation :: rest =>
    operation.events session ++ eventsAll (operation.run session).2 rest

/-- A chain of steps from session to session, with their events in order. -/
inductive Session.Chain : Session → List Event → Session → Prop
  | done (session : Session) : Chain session [] session
  | cons {source target : Expansion} {event : Event} {events : List Event} {last : Session}
      (first : Step source event target) (rest : Chain target.session events last) :
      Chain source.session (event :: events) last

namespace Session

variable {source middle target : Session} {first second : List Event}

theorem Chain.append (left : Chain source first middle) (right : Chain middle second target) :
    Chain source (first ++ second) target := by
  induction left with
  | done => exact right
  | cons step _ ih => exact .cons step (ih right)

end Session

theorem Expansion.Path.chain {source target : Expansion} {events : List Event}
    (path : Path Step source events target) :
    Session.Chain source.session events target.session := by
  induction path with
  | nil state => exact .done state.session
  | cons first _ ih => exact .cons first ih

/-- What happened in a context since it was opened. -/
theorem Expansion.Path.chain_start {session : Session} {target : Expansion} {events : List Event}
    (path : Path Step (start session.grammar session.rolls) events target) :
    Session.Chain session target.events target.session := by
  have told : target.events = events := path.events_eq
  rw [told]
  exact path.chain

theorem path_request (request : Request) (state : Expansion) :
    ∃ events, Path Step state events (request.after state) := by
  obtain ⟨events, episode⟩ := leads_request request state
  exact ⟨events, episode.path⟩

theorem path_takeOff {event : Option RuleSet → Event} {key : String}
    (kind : event = .popped key ∨ event = .released key) (state : Expansion) :
    ∃ events, Path Step state events (Run.takeOff event key state).2 := by
  obtain ⟨_, middle, taken, notes⟩ := Run.takeOff_steps kind state
  obtain ⟨events, noted⟩ := leads_record_noted middle ((Run.takeOff event key state).1)
  rw [notes]
  exact ⟨_, .cons taken noted.path⟩

theorem path_turn {turn : Turn} (lasting : turn.clears = false) (state : Expansion) :
    ∃ events, Path Step state events (turn.run state).2 := by
  cases turn with
  | ask request => exact request.answer_after state ▸ path_request request state
  | release key => exact path_takeOff (.inr rfl) state
  | push key alternatives => exact ⟨_, .single (.pushed state .caller key alternatives)⟩
  | pop key => exact path_takeOff (.inl rfl) state
  | clear => contradiction

theorem path_turns {turns : List Turn} (lasting : turns.any Turn.clears = false)
    (state : Expansion) : ∃ events, Path Step state events (Turn.runAll turns state).2 := by
  induction turns generalizing state with
  | nil => exact ⟨[], .nil state⟩
  | cons turn rest ih =>
    rw [List.any_cons, Bool.or_eq_false_iff] at lasting
    obtain ⟨first, taken⟩ := path_turn lasting.1 state
    obtain ⟨others, goesOn⟩ := ih lasting.2 (turn.run state).2
    exact ⟨first ++ others, taken.append goesOn⟩

/-- An operation is a chain of the steps that its events tell of. -/
theorem chain_operation {operation : Operation} (lasting : operation.clears = false)
    (session : Session) :
    session.Chain (operation.events session) (operation.run session).2 := by
  have requested (request : Request) : Session.Chain session
      (request.after (start session.grammar session.rolls)).events
      (request.after (start session.grammar session.rolls)).session := by
    obtain ⟨events, path⟩ := path_request request (start session.grammar session.rolls)
    exact path.chain_start
  cases operation with
  | expand rule =>
    exact requested (.expand rule { resolveEscapes := session.grammar.settings.resolveEscapes })
  | expandWith rule options => exact requested (.expand rule options)
  | flatten rule =>
    exact requested (.expand rule { resolveEscapes := session.grammar.settings.resolveEscapes })
  | selectRule key => exact requested (.select key none)
  | push key alternatives =>
    exact .cons (.pushed (start session.grammar session.rolls) .caller key alternatives) (.done _)
  | pop key =>
    simp only [Operation.events, Operation.run]
    cases popped : session.grammar.pop key with
    | error problem =>
      have missed : Step (start session.grammar session.rolls) (.popped key none) _ :=
        .missed (.inl rfl) popped
      exact .cons missed (.done _)
    | ok outcome =>
      have taken : Step (start session.grammar session.rolls) (.popped key (some outcome.1)) _ :=
        .took (.inl rfl) popped
      exact .cons taken (.done _)
  | clear => contradiction
  | context turns =>
    obtain ⟨events, path⟩ := path_turns lasting (start session.grammar session.rolls)
    exact path.chain_start

theorem chain_operations {operations : List Operation}
    (lasting : operations.any Operation.clears = false) (session : Session) :
    session.Chain (Operation.eventsAll session operations)
      (Operation.runAll session operations).2 := by
  induction operations generalizing session with
  | nil => exact .done session
  | cons operation rest ih =>
    rw [List.any_cons, Bool.or_eq_false_iff] at lasting
    exact (chain_operation lasting.1 session).append (ih lasting.2 (operation.run session).2)

namespace Grammar

/-- The log of the grammar's own symbol of a name, latest first; empty without a symbol. -/
def logOn (grammar : Grammar) (key : String) : List (Option Place) :=
  ((grammar.symbol? key).map (·.log)).getD []

theorem logOn_push (grammar : Grammar) (key : String) (alternatives : List String) :
    (grammar.push key alternatives).logOn = grammar.logOn := by
  funext other
  simp only [logOn, push, symbol?_insert]
  by_cases same : other = key
  · rw [if_pos same, same]
    cases grammar.symbol? key <;> rfl
  · rw [if_neg same]

theorem logOn_of_pop {grammar next : Grammar} {key : String} {set : RuleSet}
    (popped : grammar.pop key = .ok (set, next)) : next.logOn = grammar.logOn := by
  funext other
  obtain ⟨symbol, below, found, _, rfl⟩ := eq_of_pop popped
  rw [logOn, symbol?_insert]
  by_cases same : other = key
  · rw [if_pos same, same, logOn, found]
    rfl
  · rw [if_neg same, logOn]

/-- A selection is logged by the grammar's own symbol, if there is one, whatever comes of it. -/
theorem logOn_select (grammar : Grammar) (key other : String) (origin : Option Place)
    (path : List String) (rolls : Rolls) :
    (grammar.select key origin path rolls).grammar.logOn other =
      (if key = other ∧ (grammar.symbol? other).isSome then [origin] else []) ++
        grammar.logOn other := by
  simp only [logOn, symbol?_select]
  by_cases same : other = key
  · subst same
    cases found : grammar.symbol? other with
    | none => simp only [Option.isSome_none, Bool.false_eq_true, and_false, ↓reduceIte]; rfl
    | some symbol =>
      have logged := congrArg Symbol.log (symbol.bare_select origin path rolls)
      simp only [Option.isSome_some, and_self, ↓reduceIte]
      exact logged
  · have different : key ≠ other := Ne.symm same
    simp only [same, different, false_and, ↓reduceIte, List.nil_append]

theorem logOn_eq_bareSymbol? :
    logOn = fun grammar key => ((grammar.bareSymbol? key).map (·.log)).getD [] := by
  funext grammar key
  simp only [logOn, bareSymbol?, Option.map_map]
  rfl

/-- Selecting leaves the logs of subgrammars, and what subgrammars they have themselves. -/
theorem subgrammars_selectAmong? {key : String} {path : List String} {rolls : Rolls}
    {subs next : List Grammar} {selection : Symbol.Selection}
    (success : selectAmong? key path rolls subs = some (selection, next)) :
    next.map (·.subgrammars) = subs.map (·.subgrammars) := by
  obtain ⟨before, sub, after, symbol, rfl, _, rfl, rfl⟩ := eq_of_selectAmong? success
  rw [List.map_append, List.map_append]
  rfl

theorem subgrammars_select (grammar : Grammar) (key : String) (origin : Option Place)
    (path : List String) (rolls : Rolls) :
    (grammar.select key origin path rolls).grammar.subgrammars.map (·.subgrammars) =
      grammar.subgrammars.map (·.subgrammars) := by
  simp only [select]
  cases grammar.symbol? key with
  | some symbol => rfl
  | none =>
    cases selects : selectAmong? key path rolls grammar.subgrammars with
    | none => rfl
    | some outcome => exact subgrammars_selectAmong? selects

end Grammar

namespace Event

/-- How many selections an event makes that are asked of a name's own symbol, if it is there. -/
def asks (key : String) : Event → Nat
  | .selected other _ => if other = key then 1 else 0
  | _ => 0

/-- Whether the grammar has a symbol of its own for a name after an event, if that is known before:
a push brings one into being. -/
def keeps (key : String) (present : Bool) : Event → Bool
  | .pushed _ other _ => present || other == key
  | _ => present

end Event

/-- How many selections are asked of the grammar's own symbol of a name. Before there is such a
symbol, selections go to subgrammars or nowhere. -/
def asked (key : String) : Bool → List Event → Nat
  | _, [] => 0
  | present, event :: rest =>
    (if present then event.asks key else 0) + asked key (event.keeps key present) rest

namespace Expansion.Step

variable {source target : Expansion} {event : Event} (step : Step source event target)
include step

theorem present (key : String) : (target.grammar.symbol? key).isSome =
    event.keeps key (source.grammar.symbol? key).isSome := by
  have shows (grammar : Grammar) : (grammar.symbol? key).isSome = (grammar.mark? key).isSome := by
    rw [Grammar.mark?, Option.isSome_map]
  rw [shows, shows, step.mark? key]
  cases event with
  | pushed site other set =>
    simp only [Event.remark, Event.keeps]
    by_cases same : other = key
    · rw [if_pos same, same, beq_self_eq_true, Bool.or_true, Option.isSome_some]
    · rw [if_neg same, beq_false_of_ne same, Bool.or_false]
  | _ => rfl

theorem logOn (key : String) : ∃ added,
    target.grammar.logOn key = added ++ source.grammar.logOn key ∧
      added.length = if (source.grammar.symbol? key).isSome then event.asks key else 0 := by
  have same (asks : event.asks key = 0) (logs : target.grammar.logOn = source.grammar.logOn) :
      ∃ added, target.grammar.logOn key = added ++ source.grammar.logOn key ∧
        added.length = if (source.grammar.symbol? key).isSome then event.asks key else 0 := by
    refine ⟨[], congrFun logs key, ?_⟩
    rw [asks, ite_self, List.length_nil]
  cases step with
  | pushed site other alternatives => exact same rfl (Grammar.logOn_push _ other alternatives)
  | took kind popped =>
    have logs := Grammar.logOn_of_pop popped
    rcases kind with rfl | rfl <;> exact same rfl logs
  | missed kind failed => rcases kind with rfl | rfl <;> exact same rfl rfl
  | selected other origin path =>
    refine ⟨_, Grammar.logOn_select source.grammar other key origin path source.rolls, ?_⟩
    simp only [Event.asks]
    cases (source.grammar.symbol? key).isSome with
    | false => simp only [Bool.false_eq_true, and_false, ↓reduceIte, List.length_nil]
    | true =>
      simp only [and_true, ↓reduceIte]
      split <;> rfl
  | _ => exact same rfl rfl

theorem subgrammars_untouched :
    target.grammar.subgrammars.map Grammar.logOn = source.grammar.subgrammars.map Grammar.logOn ∧
      target.grammar.subgrammars.map (·.subgrammars) =
        source.grammar.subgrammars.map (·.subgrammars) := by
  constructor
  · have logs (subs : List Grammar) : subs.map Grammar.logOn =
        (subs.map Grammar.bareSymbol?).map fun symbols key =>
          ((symbols key).map (·.log)).getD [] := by
      rw [List.map_map, Grammar.logOn_eq_bareSymbol?]
      rfl
    rw [logs, logs, step.subgrammars]
  · cases step with
    | took kind popped => exact congrArg (List.map _) (Grammar.subgrammars_of_pop popped)
    | selected other origin path => exact Grammar.subgrammars_select _ other origin path _
    | _ => rfl

end Expansion.Step

namespace Session.Chain

variable {source target : Session} {events : List Event} (chain : Chain source events target)
include chain

theorem logOn (key : String) : ∃ added,
    target.grammar.logOn key = added ++ source.grammar.logOn key ∧
      added.length = asked key (source.grammar.symbol? key).isSome events := by
  induction chain with
  | done session => exact ⟨[], rfl, rfl⟩
  | @cons source target event events last first rest ih =>
    obtain ⟨late, grows, counts⟩ := ih
    obtain ⟨early, begins, few⟩ := first.logOn key
    have present := first.present key
    simp only [Expansion.session] at grows counts ⊢
    refine ⟨late ++ early, ?_, ?_⟩
    · rw [grows, begins, List.append_assoc]
    · rw [List.length_append, counts, few, present, asked]
      omega

theorem subgrammars_untouched :
    target.grammar.subgrammars.map Grammar.logOn = source.grammar.subgrammars.map Grammar.logOn ∧
      target.grammar.subgrammars.map (·.subgrammars) =
        source.grammar.subgrammars.map (·.subgrammars) := by
  induction chain with
  | done session => exact ⟨rfl, rfl⟩
  | cons first _ ih =>
    obtain ⟨logs, below⟩ := first.subgrammars_untouched
    exact ⟨ih.1.trans logs, ih.2.trans below⟩

end Session.Chain

end TextGrammar
