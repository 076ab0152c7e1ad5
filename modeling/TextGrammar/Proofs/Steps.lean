import TextGrammar.Expansion.State
import TextGrammar.Proofs.Stacks

/-! # The steps of an expansion

A state changes in steps, and every step writes one event into the journal. A step says under which
condition it is taken: an expansion begins within the room there is, a node is refused for want of
room, a set is taken off the stack it was on. A path is a chain of steps; what one step does to the
journal, the stacks, the marks or the subgrammars, a path does event by event.
-/

namespace TextGrammar

/-- A node that nothing came of yet. -/
def Node.Fresh (node : Node) : Prop :=
  node.children = [] ∧ node.errors = []

theorem Node.fresh_root (rule : String) : (Node.root rule).Fresh :=
  ⟨rfl, rfl⟩

theorem Node.fresh_ofSegment (parent : Place) (index : Nat) (segment : Segment) :
    (Node.ofSegment parent index segment).Fresh :=
  ⟨rfl, rfl⟩

namespace Event

/-- What an event does to the stack of a name, counters aside. -/
def restack (key : String) (sets : List RuleSet) : Event → List RuleSet
  | .pushed _ other set => if other = key then set.clear :: sets else sets
  | .popped other (some _) | .released other (some _) => if other = key then sets.tail else sets
  | _ => sets

/-- What an event does to the mark of a name: a push leaves a symbol, and marks the one it makes. -/
def remark (key : String) (mark : Option Bool) : Event → Option Bool
  | .pushed _ other _ => if other = key then some (mark.getD true) else mark
  | _ => mark

/-- What an event does to the depth. -/
def relevel (depth : Nat) : Event → Nat
  | .entered _ _ => depth + 1
  | .left _ => depth - 1
  | _ => depth

end Event

namespace Expansion

/-- One step from state to state, with its event. -/
inductive Step : Expansion → Event → Expansion → Prop
  | noted (state : Expansion) (problem : Problem) :
      Step state (.noted problem) (state.record [.noted problem])
  | activated (state : Expansion) (site : Site) (action : Action) :
      Step state (.activated site action) (state.record [.activated site action])
  | entered {state : Expansion} (raw : String) (going : state.tripped = false)
      (room : state.depth < state.limit) :
      Step state (.entered raw (state.depth + 1))
        ({ state with depth := state.depth + 1 }.record [.entered raw (state.depth + 1)])
  | refused {state : Expansion} {node : Node} (fresh : node.Fresh)
      (full : state.tripped = true ∨ state.limit ≤ state.depth) :
      Step state (.refused (node.refused state.limit) state.depth)
        ({ state with tripped := true }.record [.refused (node.refused state.limit) state.depth])
  | left (state : Expansion) :
      Step state (.left state.depth)
        ({ state with depth := state.depth - 1 }.record [.left state.depth])
  | pushed (state : Expansion) (site : Site) (key : String) (alternatives : List String) :
      Step state (.pushed site key (state.grammar.pushedSet alternatives))
        ({ state with grammar := state.grammar.push key alternatives }.record
          [.pushed site key (state.grammar.pushedSet alternatives)])
  | took {state : Expansion} {event : Option RuleSet → Event} {key : String} {set : RuleSet}
      {grammar : Grammar} (kind : event = .popped key ∨ event = .released key)
      (popped : state.grammar.pop key = .ok (set, grammar)) :
      Step state (event (some set)) ({ state with grammar }.record [event (some set)])
  | missed {state : Expansion} {event : Option RuleSet → Event} {key : String} {problem : Problem}
      (kind : event = .popped key ∨ event = .released key)
      (failed : state.grammar.pop key = .error problem) :
      Step state (event none) (state.record [event none])
  | selected (state : Expansion) (key : String) (origin : Option Place) (path : List String) :
      Step state (.selected key (state.grammar.select key origin path state.rolls).rule)
        ({ state with
            grammar := (state.grammar.select key origin path state.rolls).grammar
            rolls := (state.grammar.select key origin path state.rolls).rolls }.record
          [.selected key (state.grammar.select key origin path state.rolls).rule])

namespace Step

variable {source target : Expansion} {event : Event}

theorem events (step : Step source event target) : target.events = source.events ++ [event] := by
  cases step <;> simp only [Expansion.events, record, List.reverse_cons, List.reverse_nil,
    List.nil_append, List.cons_append]

theorem limit (step : Step source event target) : target.limit = source.limit := by
  cases step <;> rfl

theorem depth (step : Step source event target) :
    target.depth = event.relevel source.depth := by
  cases step with
  | took kind _ | missed kind _ => rcases kind with rfl | rfl <;> rfl
  | _ => rfl

/-- The stacks are what the journal makes of them. -/
theorem setsOn (step : Step source event target) (key : String) :
    target.grammar.setsOn key = event.restack key (source.grammar.setsOn key) := by
  cases step with
  | pushed site other alternatives =>
    change (source.grammar.push other alternatives).setsOn key = _
    rw [Grammar.setsOn_push]
    simp only [Event.restack]
    by_cases same : other = key
    · simp only [same, ↓reduceIte]
    · simp only [same, Ne.symm same, ↓reduceIte]
  | @took _ other set grammar kind popped =>
    change grammar.setsOn key = _
    rw [Grammar.setsOn_of_pop popped key]
    by_cases same : other = key
    · rcases kind with rfl | rfl <;>
        simp only [Event.restack, same, ↓reduceIte, List.tail_cons]
    · rcases kind with rfl | rfl <;>
        simp only [Event.restack, same, Ne.symm same, ↓reduceIte]
  | missed kind failed => rcases kind with rfl | rfl <;> rfl
  | selected other origin path => exact Grammar.setsOn_select _ _ _ _ _ _
  | _ => rfl

/-- The marks are what the journal makes of them. -/
theorem mark? (step : Step source event target) (key : String) :
    target.grammar.mark? key = event.remark key (source.grammar.mark? key) := by
  cases step with
  | pushed site other alternatives =>
    change (source.grammar.push other alternatives).mark? key = _
    rw [Grammar.mark?_push]
    simp only [Event.remark]
    by_cases same : other = key
    · simp only [same, ↓reduceIte]
    · simp only [same, Ne.symm same, ↓reduceIte]
  | took kind popped =>
    rcases kind with rfl | rfl <;> exact Grammar.mark?_of_pop popped key
  | missed kind failed => rcases kind with rfl | rfl <;> rfl
  | selected other origin path => exact Grammar.mark?_select _ _ _ _ _ _
  | _ => rfl

/-- A release finds a set exactly where there is one. -/
theorem released_none_iff {key : String} {set : Option RuleSet}
    (step : Step source (.released key set) target) :
    set = none ↔ source.grammar.setsOn key = [] := by
  generalize released : Event.released key set = event at step
  cases step with
  | missed kind failed =>
    rcases kind with rfl | rfl
    · contradiction
    · cases released
      exact iff_of_true rfl (Grammar.setsOn_of_pop_error failed)
  | took kind popped =>
    rcases kind with rfl | rfl
    · contradiction
    · cases released
      refine iff_of_false (Option.some_ne_none _) ?_
      rw [Grammar.setsOn_of_pop popped, if_pos rfl]
      exact List.cons_ne_nil _ _
  | _ => contradiction

/-- Only a selection reaches into a subgrammar, and it counts a use there. -/
theorem subgrammars (step : Step source event target) :
    target.grammar.subgrammars.map Grammar.bareSymbol? =
      source.grammar.subgrammars.map Grammar.bareSymbol? := by
  cases step with
  | took kind popped =>
    exact congrArg (List.map Grammar.bareSymbol?) (Grammar.subgrammars_of_pop popped)
  | selected other origin path => exact Grammar.bareSymbol?_subgrammars_select _ _ _ _ _
  | _ => rfl

end Step

/-- A chain of steps of some kind, with their events in order. -/
inductive Path (step : Expansion → Event → Expansion → Prop) :
    Expansion → List Event → Expansion → Prop
  | nil (state : Expansion) : Path step state [] state
  | cons {source middle target : Expansion} {event : Event} {events : List Event}
      (first : step source event middle) (rest : Path step middle events target) :
      Path step source (event :: events) target

namespace Path

variable {step : Expansion → Event → Expansion → Prop}
  {source middle target : Expansion} {event : Event} {events first second : List Event}

theorem single (taken : step source event target) : Path step source [event] target :=
  .cons taken (.nil target)

theorem append (left : Path step source first middle) (right : Path step middle second target) :
    Path step source (first ++ second) target := by
  induction left with
  | nil => exact right
  | cons taken _ ih => exact .cons taken (ih right)

/-- What every step updates by its event, a path updates by its events in turn. -/
theorem fold {α : Type} (observe : Expansion → α) {update : α → Event → α}
    (each : ∀ {s e t}, step s e t → observe t = update (observe s) e)
    (path : Path step source events target) :
    observe target = events.foldl update (observe source) := by
  induction path with
  | nil => rfl
  | cons taken _ ih => rw [ih, each taken, List.foldl_cons]

/-- What every step relates, a path relates. -/
theorem relate (relation : Expansion → Expansion → Prop) (refl : ∀ s, relation s s)
    (trans : ∀ {s t u}, relation s t → relation t u → relation s u)
    (each : ∀ {s e t}, step s e t → relation s t)
    (path : Path step source events target) : relation source target := by
  induction path with
  | nil state => exact refl state
  | cons taken _ ih => exact trans (each taken) ih

theorem events_eq (path : Path Step source events target) :
    target.events = source.events ++ events := by
  induction path with
  | nil => rw [List.append_nil]
  | cons taken _ ih => rw [ih, taken.events, List.append_assoc, List.singleton_append]

theorem limit_eq (path : Path Step source events target) : target.limit = source.limit :=
  path.relate (fun s t => t.limit = s.limit) (fun _ => rfl)
    (fun first second => second.trans first) (fun taken => taken.limit)

theorem depth_eq (path : Path Step source events target) :
    target.depth = events.foldl Event.relevel source.depth :=
  path.fold (fun s => s.depth) fun taken => taken.depth

theorem setsOn_eq (path : Path Step source events target) (key : String) :
    target.grammar.setsOn key =
      events.foldl (Event.restack key) (source.grammar.setsOn key) :=
  path.fold (fun s => s.grammar.setsOn key) fun taken => taken.setsOn key

theorem subgrammars_eq (path : Path Step source events target) :
    target.grammar.subgrammars.map Grammar.bareSymbol? =
      source.grammar.subgrammars.map Grammar.bareSymbol? :=
  path.relate
    (fun s t => t.grammar.subgrammars.map Grammar.bareSymbol? =
      s.grammar.subgrammars.map Grammar.bareSymbol?)
    (fun _ => rfl) (fun first second => second.trans first) (fun taken => taken.subgrammars)

theorem mark?_eq (path : Path Step source events target) (key : String) :
    target.grammar.mark? key = events.foldl (Event.remark key) (source.grammar.mark? key) :=
  path.fold (fun s => s.grammar.mark? key) fun taken => taken.mark? key

end Path

end Expansion

end TextGrammar
