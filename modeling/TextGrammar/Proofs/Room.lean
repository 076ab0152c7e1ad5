import TextGrammar.Proofs.Runs

/-! # Keeping to the room there is

Every request gives back the room it took: the depth is the same before and after, and never beyond
the ceiling in between. The ceiling is hit where the depth has reached it, and from then on nothing
is entered; what is still reached is refused.
-/

namespace TextGrammar

open Engine

namespace Event

/-- Whether an event is an entry. -/
def enters : Event → Bool
  | .entered _ _ => true
  | _ => false

/-- Whether an event is a refusal. -/
def refuses : Event → Bool
  | .refused _ _ => true
  | _ => false

end Event

/-- A node as it is left for want of room: its source in a placeholder, nothing below it, and one
problem. -/
structure Node.TurnedAway (node : Node) (limit : Nat) : Prop where
  text : node.text = placeholder node.raw
  children : node.children = []
  errors : node.errors = [.recursionLimit limit node.raw]

theorem Node.Fresh.turnedAway {node : Node} (fresh : node.Fresh) (limit : Nat) :
    (node.refused limit).TurnedAway limit where
  text := rfl
  children := fresh.1
  errors := by
    change node.errors ++ _ = _
    rw [fresh.2, List.nil_append]
    rfl

namespace Expansion

/-- A state in which every root, tag and action is turned away, whatever it would do. -/
def Exhausted (state : Expansion) : Prop :=
  ∀ (body : Expander) (node : Node), node.Fresh → node.expanded = false →
    node.kind ≠ .segment .plain → ∃ refused : Node, refused.raw = node.raw ∧
      refused.TurnedAway state.limit ∧ withRoom body node state = (⟨refused, none⟩, state.record
        [.refused refused state.depth, .noted (.recursionLimit state.limit node.raw)])

theorem exhausted_of_tripped {state : Expansion} (tripped : state.tripped = true) :
    state.Exhausted := by
  intro body node fresh unexpanded asks
  have known : ({ node with expanded := true } : Node).Fresh := fresh
  have same : { state with tripped := true } = state := by rw [← tripped]
  refine ⟨_, ?_, known.turnedAway state.limit, ?_⟩
  · rfl
  · simp only [withRoom, unexpanded, asks, ↓reduceIte, Bool.false_eq_true, Run.bind_apply,
      Run.enter, tripped, Bool.true_or, same, Run.pure_apply]

/-- A step that keeps to the room there is. -/
structure RoomStep (source : Expansion) (event : Event) (target : Expansion) : Prop where
  step : Step source event target
  within : target.depth ≤ target.limit
  /-- What was taken is there to be given back. -/
  leaves : ∀ depth, event = .left depth → 0 < source.depth
  /-- Once hit, the ceiling stays hit. -/
  stays : source.tripped = true → target.tripped = true
  enters : ∀ raw depth, event = .entered raw depth → source.tripped = false
  refuses : ∀ node depth, event = .refused node depth → target.tripped = true ∧
    (source.tripped = false → source.depth = source.limit) ∧ node.TurnedAway source.limit
  exhausts : target.tripped = true → target.Exhausted

variable {source target : Expansion} {event : Event} {events : List Event}

/-- A step goes beyond the ceiling only from beyond it. -/
theorem Step.within (step : Step source event target) (within : source.depth ≤ source.limit) :
    target.depth ≤ target.limit := by
  cases step with
  | entered raw going room => exact room
  | left => exact Nat.le_trans (Nat.sub_le _ _) within
  | _ => exact within

/-- What takes no room that was not there keeps to the room. -/
theorem Step.room (step : Step source event target) (within : source.depth ≤ source.limit)
    (leaves : ∀ depth, event = .left depth → 0 < source.depth) :
    RoomStep source event target where
  step := step
  within := step.within within
  leaves := leaves
  stays tripped := by
    cases step with
    | refused fresh full => rfl
    | _ => exact tripped
  enters raw depth entry := by
    cases step with
    | entered raw going room => exact going
    | took kind _ | missed kind _ => rcases kind with rfl | rfl <;> contradiction
    | _ => contradiction
  refuses node depth refusal := by
    cases step with
    | refused fresh full =>
      cases refusal
      refine ⟨rfl, fun going => ?_, fresh.turnedAway _⟩
      have reached := full.resolve_left (by rw [going]; exact Bool.false_ne_true)
      exact Nat.le_antisymm within reached
    | took kind _ | missed kind _ => rcases kind with rfl | rfl <;> contradiction
    | _ => contradiction
  exhausts := exhausted_of_tripped

theorem Path.within (path : Path Step source events target) :
    source.depth ≤ source.limit → target.depth ≤ target.limit :=
  path.relate (fun s t => s.depth ≤ s.limit → t.depth ≤ t.limit) (fun _ => id)
    (fun first second => second ∘ first) Step.within

theorem Closing.depth {keys : List String} (closing : Closing keys source events target) :
    target.depth = source.depth :=
  closing.path.depth_eq.trans (closing.level _)

/-- An episode gives back the room it takes. -/
theorem Episode.depth {keys : List String} (episode : Episode keys source events target) :
    target.depth = source.depth :=
  episode.path.depth_eq.trans (episode.level _)

theorem Closing.room {keys : List String} (closing : Closing keys source events target)
    (within : source.depth ≤ source.limit) : Path RoomStep source events target := by
  induction closing with
  | done state => exact .nil state
  | noted step _ ih | released step _ ih =>
    exact .cons (step.room within fun _ => nofun) (ih (step.within within))

/-- Every step of an episode keeps to the room there is. What ends an expansion finds the room that
its beginning took, since all that lies in between gave back its own. -/
theorem Episode.room {keys : List String} (episode : Episode keys source events target)
    (within : source.depth ≤ source.limit) : Path RoomStep source events target := by
  induction episode with
  | done state => exact .nil state
  | append first _ left right => exact (left within).append (right (first.path.within within))
  | @quiet source target event step calm =>
    refine .single (step.room within fun depth left => ?_)
    rw [left] at calm
    exact calm.elim
  | pop begins pops =>
    exact .cons (begins.room within fun _ => nofun)
      (.single (pops.room (begins.within within) fun _ => nofun))
  | headPush begins inside pushes parts | freePush _ begins inside pushes parts =>
    have begun := begins.within within
    exact .cons (begins.room within fun _ => nofun)
      ((parts begun).append (.single (pushes.room (inside.path.within begun) fun _ => nofun)))
  | @nested source middle ready undone target raw depth bottom keys events closing enters episode
      closes leaves inside =>
    have entered := enters.within within
    have readied := episode.path.within entered
    have taken : 0 < undone.depth := by
      rw [closes.depth, episode.depth, enters.depth]
      exact Nat.succ_pos _
    exact .cons (enters.room within fun _ => nofun)
      ((inside entered).append ((closes.room readied).append
        (.single (leaves.room (closes.path.within readied) fun _ _ => taken))))

/-- Once the ceiling is hit, nothing is entered. -/
theorem Path.enters_of_tripped (path : Path RoomStep source events target)
    (tripped : source.tripped = true) : ∀ event ∈ events, event.enters = false := by
  induction path with
  | nil => exact fun _ member => absurd member List.not_mem_nil
  | @cons source middle target event events first rest ih =>
    refine List.forall_mem_cons.mpr ⟨?_, ih (first.stays tripped)⟩
    cases event with
    | entered raw depth =>
      rw [first.enters raw depth rfl] at tripped
      contradiction
    | _ => rfl

theorem Path.enters_after_refusal (path : Path RoomStep source events target) :
    events.Pairwise fun earlier later => earlier.refuses = true → later.enters = false := by
  induction path with
  | nil => exact .nil
  | @cons source middle target event events first rest ih =>
    refine .cons (fun later member refusal => ?_) ih
    cases event with
    | refused node depth =>
      exact rest.enters_of_tripped (first.refuses node depth rfl).1 later member
    | _ => contradiction

end Expansion

open Expansion

/-- A request keeps to the room there is, whether it succeeds or is cut short: it gives back what
it took, its steps never go beyond the ceiling, and after the first refusal nothing is entered any
more. A context begins at depth zero, so each request finds it within its ceiling. -/
theorem request_keeps_room (request : Request) (state : Expansion)
    (within : state.depth ≤ state.limit) :
    ∃ events, (request.after state).events = state.events ++ events ∧
      (request.after state).depth = state.depth ∧ (request.after state).limit = state.limit ∧
      Path RoomStep state events (request.after state) ∧
      events.Pairwise fun earlier later => earlier.refuses = true → later.enters = false := by
  obtain ⟨events, episode⟩ := leads_request request state
  have path := episode.room within
  exact ⟨events, episode.path.events_eq, episode.depth, episode.path.limit_eq, path,
    path.enters_after_refusal⟩

/-- A rule that calls itself, with room for two expansions. -/
def shortLoop : Grammar :=
  .ofWritten [("a", .one "#a#")] { maxDepth := 2 }

theorem request_keeps_room_shortLoop :
    let request := Request.expand "#a#" {}
    let state := start shortLoop { stream := fun _ => default }
    state.depth ≤ state.limit ∧ (request.after state).tripped = true ∧
      ∃ events, (request.after state).events = state.events ++ events ∧
        (request.after state).depth = state.depth ∧
        Path RoomStep state events (request.after state) := by
  intro request state
  have within : state.depth ≤ state.limit := Nat.zero_le _
  have tripped : (request.after state).tripped = true := by
    simp only [request, state]
    cbv
  obtain ⟨events, told, depth, _, path, _⟩ := request_keeps_room request state within
  exact ⟨within, tripped, events, told, depth, path⟩

end TextGrammar
