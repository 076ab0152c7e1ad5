import TextGrammar.Expansion.Entry
import TextGrammar.Proofs.Steps

/-! # The shape of a run

The steps of a run nest. Between the beginning and the end of an expansion stand whole expansions
and single actions; the head of a tag may push in between, and just before the tag ends its pushes
are undone in the order they were made. An `Episode` is a stretch of a run within one expansion; it
keeps the names that the head pushed onto. Every run of the engine is one, whatever it is given to
expand and whether or not it is cut short.
-/

namespace TextGrammar

/-- An event that neither begins nor ends an expansion and leaves the stacks alone. -/
def Event.Quiet : Event → Prop
  | .noted _ | .activated _ _ | .refused _ _ | .selected _ _ => True
  | _ => False

theorem Event.Quiet.relevel {event : Event} (calm : event.Quiet) (depth : Nat) :
    event.relevel depth = depth := by
  cases event <;> first | rfl | exact calm.elim

namespace Expansion

/-- The undoing of pushes onto some names, in order. -/
inductive Closing : List String → Expansion → List Event → Expansion → Prop
  | done (state : Expansion) : Closing [] state [] state
  | noted {source middle target : Expansion} {problem : Problem} {keys : List String}
      {events : List Event} (step : Step source (.noted problem) middle)
      (rest : Closing keys middle events target) :
      Closing keys source (.noted problem :: events) target
  | released {source middle target : Expansion} {key : String} {set : Option RuleSet}
      {keys : List String} {events : List Event} (step : Step source (.released key set) middle)
      (rest : Closing keys middle events target) :
      Closing (key :: keys) source (.released key set :: events) target

/-- A stretch of a run within one expansion, with the names that a tag head pushed onto in it. -/
inductive Episode : List String → Expansion → List Event → Expansion → Prop
  | done (state : Expansion) : Episode [] state [] state
  | append {source middle target : Expansion} {keys more : List String}
      {first second : List Event} (left : Episode keys source first middle)
      (right : Episode more middle second target) :
      Episode (keys ++ more) source (first ++ second) target
  | quiet {source target : Expansion} {event : Event} (step : Step source event target)
      (calm : event.Quiet) : Episode [] source [event] target
  | pop {source middle target : Expansion} {site : Site} {key : String} {set : Option RuleSet}
      (begins : Step source (.activated site (.pop key)) middle)
      (pops : Step middle (.popped key set) target) :
      Episode [] source [.activated site (.pop key), .popped key set] target
  | headPush {source middle ready target : Expansion} {key rule : String} {set : RuleSet}
      {events : List Event} (begins : Step source (.activated .tagHead (.push key rule)) middle)
      (parts : Episode [] middle events ready)
      (pushes : Step ready (.pushed .tagHead key set) target) :
      Episode [key] source
        (.activated .tagHead (.push key rule) :: (events ++ [.pushed .tagHead key set])) target
  | freePush {source middle ready target : Expansion} {site : Site} {key rule : String}
      {set : RuleSet} {events : List Event} (free : site ≠ .tagHead)
      (begins : Step source (.activated site (.push key rule)) middle)
      (parts : Episode [] middle events ready) (pushes : Step ready (.pushed site key set) target) :
      Episode [] source
        (.activated site (.push key rule) :: (events ++ [.pushed site key set])) target
  | nested {source middle ready undone target : Expansion} {raw : String} {depth bottom : Nat}
      {keys : List String} {events closing : List Event}
      (enters : Step source (.entered raw depth) middle) (inside : Episode keys middle events ready)
      (closes : Closing keys ready closing undone) (leaves : Step undone (.left bottom) target) :
      Episode [] source
        (.entered raw depth :: (events ++ (closing ++ [.left bottom]))) target

theorem Closing.path {keys : List String} {source target : Expansion} {events : List Event}
    (closing : Closing keys source events target) : Path Step source events target := by
  induction closing with
  | done state => exact .nil state
  | noted step _ ih => exact .cons step ih
  | released step _ ih => exact .cons step ih

/-- Forgetting how it nests, an episode is a path. -/
theorem Episode.path {keys : List String} {source target : Expansion} {events : List Event}
    (episode : Episode keys source events target) : Path Step source events target := by
  induction episode with
  | done state => exact .nil state
  | append _ _ left right => exact left.append right
  | quiet step _ => exact .single step
  | pop begins pops => exact .cons begins (.single pops)
  | headPush begins _ pushes parts | freePush _ begins _ pushes parts =>
    exact .cons begins (parts.append (.single pushes))
  | nested enters _ closes leaves inside =>
    exact .cons enters (inside.append (closes.path.append (.single leaves)))

theorem Closing.level {keys : List String} {source target : Expansion} {events : List Event}
    (closing : Closing keys source events target) (level : Nat) :
    events.foldl Event.relevel level = level := by
  induction closing with
  | done state => rfl
  | noted step _ ih | released step _ ih => exact ih

/-- An episode ends at the level where it began. -/
theorem Episode.level {keys : List String} {source target : Expansion} {events : List Event}
    (episode : Episode keys source events target) (level : Nat) :
    events.foldl Event.relevel level = level := by
  induction episode generalizing level with
  | done state => rfl
  | append _ _ left right => rw [List.foldl_append, left, right]
  | quiet step calm => exact calm.relevel level
  | pop begins pops => rfl
  | headPush begins _ pushes parts | freePush _ begins _ pushes parts =>
    simp only [List.foldl_cons, List.foldl_append, List.foldl_nil, Event.relevel, parts]
  | nested enters _ closes leaves inside =>
    simp only [List.foldl_cons, List.foldl_append, List.foldl_nil, Event.relevel, inside,
      closes.level, Nat.add_sub_cancel]

/-- The expansion of one node: quiet steps if nothing comes of it, and otherwise all that lies
between its beginning and its end. -/
inductive Visit : Expansion → List Event → Expansion → Prop
  | still {source target : Expansion} {events : List Event} (path : Path Step source events target)
      (calm : ∀ event ∈ events, event.Quiet) : Visit source events target
  | opened {source middle ready undone target : Expansion} {raw : String} {depth bottom : Nat}
      {keys : List String} {events closing : List Event}
      (enters : Step source (.entered raw depth) middle) (inside : Episode keys middle events ready)
      (closes : Closing keys ready closing undone) (leaves : Step undone (.left bottom) target) :
      Visit source (.entered raw depth :: (events ++ (closing ++ [.left bottom]))) target

theorem Path.episode {source target : Expansion} {events : List Event}
    (path : Path Step source events target) (calm : ∀ event ∈ events, event.Quiet) :
    Episode [] source events target := by
  induction path with
  | nil state => exact .done state
  | cons first rest ih =>
    obtain ⟨quiet, calm⟩ := List.forall_mem_cons.mp calm
    exact (Episode.quiet first quiet).append (ih calm)

theorem Visit.episode {source target : Expansion} {events : List Event}
    (visit : Visit source events target) : Episode [] source events target := by
  cases visit with
  | still path calm => exact path.episode calm
  | opened enters inside closes leaves => exact .nested enters inside closes leaves

/-- One state leads to another by an episode. -/
def Leads (keys : List String) (source target : Expansion) : Prop :=
  ∃ events, Episode keys source events target

/-- An expander visits a fresh node. -/
def Plays (inner : Expander) : Prop :=
  ∀ node state, node.Fresh → ∃ events, Visit state events (inner node state).2

theorem Plays.leads {inner : Expander} (plays : Plays inner) {node : Node} (fresh : node.Fresh)
    (state : Expansion) : Leads [] state (inner node state).2 := by
  obtain ⟨events, visit⟩ := plays node state fresh
  exact ⟨events, visit.episode⟩

namespace Leads

variable {source middle target : Expansion} {keys more : List String}

theorem done (state : Expansion) : Leads [] state state :=
  ⟨[], .done state⟩

theorem append (left : Leads keys source middle) (right : Leads more middle target) :
    Leads (keys ++ more) source target := by
  obtain ⟨first, left⟩ := left
  obtain ⟨second, right⟩ := right
  exact ⟨first ++ second, left.append right⟩

theorem trans (left : Leads [] source middle) (right : Leads keys middle target) :
    Leads keys source target :=
  left.append right

theorem quiet {event : Event} (step : Step source event target) (calm : event.Quiet) :
    Leads [] source target :=
  ⟨[event], .quiet step calm⟩

end Leads

theorem record_append (state : Expansion) (first second : List Event) :
    state.record (first ++ second) = (state.record first).record second := by
  simp only [record, List.reverse_append, List.append_assoc]

theorem events_record (state : Expansion) (events : List Event) :
    (state.record events).events = state.events ++ events := by
  rw [Expansion.events, record, List.reverse_append, List.reverse_reverse, Expansion.events]

/-- Noting problems is quiet. -/
theorem leads_record_noted (state : Expansion) (problems : List Problem) :
    Leads [] state (state.record (problems.map .noted)) := by
  induction problems generalizing state with
  | nil => exact .done state
  | cons problem rest ih =>
    rw [List.map_cons, ← List.singleton_append, record_append]
    exact (Leads.quiet (.noted state problem) trivial).trans (ih _)

theorem Closing.record_noted {keys : List String} {events : List Event}
    {source middle target : Expansion} {problems : List Problem}
    (notes : middle = source.record (problems.map .noted))
    (closing : Closing keys middle events target) :
    Closing keys source (problems.map .noted ++ events) target := by
  induction problems generalizing source with
  | nil =>
    rw [notes] at closing
    exact closing
  | cons problem rest ih =>
    rw [List.map_cons, ← List.singleton_append, record_append] at notes
    exact .noted (.noted source problem) (ih notes)

end Expansion

namespace Run

open Expansion

variable {α β : Type}

theorem bind_apply (run : Run α) (next : α → Run β) (state : Expansion) :
    (run >>= next) state = next (run state).1 (run state).2 := rfl

theorem pure_apply (value : α) (state : Expansion) : (pure value : Run α) state = (value, state) :=
  rfl

theorem get_apply (state : Expansion) : (get : Run Expansion) state = (state, state) := rfl

theorem note_apply (problems : List Problem) (state : Expansion) :
    note problems state = ((), state.record (problems.map .noted)) := rfl

theorem begin_step (site : Site) (action : Action) (state : Expansion) :
    Step state (.activated site action) (begin site action state).2 :=
  .activated state site action

theorem push_step (site : Site) (key : String) (alternatives : List String) (state : Expansion) :
    ∃ set, Step state (.pushed site key set) (push site key alternatives state).2 :=
  ⟨_, .pushed state site key alternatives⟩

theorem leave_step (state : Expansion) : Step state (.left state.depth) (leave state).2 :=
  .left state

/-- Taking a set off is one step, and the problem of a failure is noted after it. -/
theorem takeOff_steps {event : Option RuleSet → Event} {key : String}
    (kind : event = .popped key ∨ event = .released key) (state : Expansion) :
    ∃ set middle, Step state (event set) middle ∧
      (takeOff event key state).2 = middle.record ((takeOff event key state).1.map .noted) := by
  cases popped : state.grammar.pop key with
  | ok outcome =>
    refine ⟨_, _, .took kind popped, ?_⟩
    simp only [takeOff, popped]
    rfl
  | error problem =>
    refine ⟨_, _, .missed kind popped, ?_⟩
    simp only [takeOff, popped]
    rfl

theorem leads_select (key : String) (origin : Option Place) (path : List String)
    (state : Expansion) : Leads [] state (select key origin path state).2 := by
  have selects := Leads.quiet (.selected state key origin path) trivial
  simp only [select]
  rw [← List.singleton_append, record_append]
  exact selects.trans (leads_record_noted _ _)

end Run

end TextGrammar
