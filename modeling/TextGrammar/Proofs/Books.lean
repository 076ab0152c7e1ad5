import TextGrammar.Proofs.Causes
import TextGrammar.Proofs.Steps

/-! # The books of a run

Books are kept of a journal, event by event. For each expansion in progress they show which push its
head has begun, and which pushes of the head are still to be undone, in the order they were made. A
push that was begun is made before the head goes on; an expansion does not end before all its pushes
were tried to be undone, first to last. A pop or a release that found nothing is told by the very
next event, and nothing else is told in this way. An event that is out of order cannot be entered.

Books that close tell how high the stacks are.
-/

namespace TextGrammar

/-- An expansion in progress, as the books show it. -/
structure Frame where
  /-- The name onto which the head has begun to push, if it has. -/
  begun : Option String := none
  /-- The names that the head pushed onto and that nobody tried to release yet. -/
  owed : List String := []
deriving DecidableEq, Repr

/-- A failure that has to be told. -/
inductive Failure
  | pop
  | release
deriving DecidableEq, Repr

/-- Whether a problem tells of a failure. A release always finds the symbol. -/
def Failure.toldBy : Failure → Problem → Bool
  | _, .nothingToPop _ => true
  | .pop, .noSymbolToPop _ => true
  | _, _ => false

/-- The books: the expansions in progress, innermost first, and the failure that is not told yet. -/
structure Books where
  frames : List Frame := []
  untold : Option Failure := none
deriving DecidableEq, Repr

/-- The name that an action pushes onto. -/
def Action.pushes? : Action → Option String
  | .push target _ => some target
  | _ => none

namespace Event

/-- Whether an event is a push of some site onto a name. -/
def isPush (site : Site) (key : String) : Event → Bool
  | .pushed maker other _ => maker == site && other == key
  | _ => false

/-- Whether a tag head begins to push onto a name. -/
def beginsPush (key : String) : Event → Bool
  | .activated .tagHead action => action.pushes? == some key
  | _ => false

/-- Whether a pop action took a set off a name. -/
def isPop (key : String) : Event → Bool
  | .popped other set => set.isSome && other == key
  | _ => false

/-- Whether the end of a tag tried to take a set off a name. -/
def isRelease (key : String) : Event → Bool
  | .released other _ => other == key
  | _ => false

/-- Whether the end of a tag found no set to take off a name. -/
def isFailedRelease (key : String) : Event → Bool
  | .released other set => set.isNone && other == key
  | _ => false

/-- The failure that an event is, if it is one. -/
def failure? : Event → Option Failure
  | .popped _ none => some .pop
  | .released _ none => some .release
  | _ => none

/-- Whether an event tells of a failure to take a set off. -/
def tellsFailure : Event → Bool
  | .noted problem => problem.cause == .takingOff
  | _ => false

end Event

namespace Books

/-- Enter an event while all failures are told. -/
def enterTold (frames : List Frame) (event : Event) : Option Books :=
  match event, frames with
  | .noted problem, _ => if problem.cause = .takingOff then none else some ⟨frames, none⟩
  | .entered _ _, _ => some ⟨{} :: frames, none⟩
  | .left _, ⟨_, []⟩ :: outer => some ⟨outer, none⟩
  | .activated .tagHead action, ⟨none, owed⟩ :: outer =>
    some ⟨⟨action.pushes?, owed⟩ :: outer, none⟩
  | .activated .bare _, _ => some ⟨frames, none⟩
  | .pushed .tagHead key _, ⟨some begun, owed⟩ :: outer =>
    if begun = key then some ⟨⟨none, owed ++ [key]⟩ :: outer, none⟩ else none
  | .pushed .bare _ _, _ => some ⟨frames, none⟩
  | .popped _ _, _ => some ⟨frames, event.failure?⟩
  | .released key _, ⟨begun, first :: owed⟩ :: outer =>
    if first = key then some ⟨⟨begun, owed⟩ :: outer, event.failure?⟩ else none
  | .refused _ _, _ | .selected _ _, _ => some ⟨frames, none⟩
  | _, _ => none

/-- Enter an event; there is no answer if it is out of order. -/
def enter (books : Books) (event : Event) : Option Books :=
  match books.untold, event with
  | none, event => enterTold books.frames event
  | some failure, .noted problem =>
    if failure.toldBy problem then some { books with untold := none } else none
  | some _, _ => none

/-- Enter events in turn. -/
def enterAll (books : Books) (events : List Event) : Option Books :=
  events.foldlM enter books

theorem enterAll_append (books : Books) (first second : List Event) :
    books.enterAll (first ++ second) = (books.enterAll first).bind (·.enterAll second) :=
  List.foldlM_append

theorem enterAll_cons (books : Books) (event : Event) (rest : List Event) :
    books.enterAll (event :: rest) = (books.enter event).bind (·.enterAll rest) :=
  List.foldlM_cons

/-- Some frames take up events and become others, with all failures told. -/
def Takes (frames : List Frame) (events : List Event) (later : List Frame) : Prop :=
  enterAll ⟨frames, none⟩ events = some ⟨later, none⟩

section

variable {frames between later : List Frame} {first second : List Event}

theorem Takes.nil (frames : List Frame) : Takes frames [] frames := rfl

theorem Takes.append (left : Takes frames first between) (right : Takes between second later) :
    Takes frames (first ++ second) later := by
  rw [Takes, enterAll_append, left, Option.bind_some, right]

theorem Takes.single {event : Event} (entered : enterTold frames event = some ⟨later, none⟩) :
    Takes frames [event] later := by
  rw [Takes, enterAll_cons]
  exact congrArg (Option.bind · _) entered

/-- Problems that tell of no failure are entered at any time. -/
theorem takes_noted {problems : List Problem} (frames : List Frame)
    (harmless : ∀ problem ∈ problems, problem.cause ≠ .takingOff) :
    Takes frames (problems.map .noted) frames := by
  induction problems with
  | nil => exact .nil frames
  | cons problem rest ih =>
    obtain ⟨first, others⟩ := List.forall_mem_cons.mp harmless
    have noted : Takes frames [.noted problem] frames := .single (if_neg first)
    exact noted.append (ih others)

/-- A failure and the problem that tells of it are entered together. -/
theorem takes_failure {event : Event} {problem : Problem} (failure : Failure)
    (entered : enterTold frames event = some ⟨later, some failure⟩)
    (told : failure.toldBy problem = true) : Takes frames [event, .noted problem] later := by
  have enters : enter ⟨frames, none⟩ event = some ⟨later, some failure⟩ := entered
  have tells : enter ⟨later, some failure⟩ (.noted problem) = some ⟨later, none⟩ := if_pos told
  rw [Takes, enterAll_cons, enters, Option.bind_some, enterAll_cons, tells]
  rfl

end

/-- How often a name is still to be released. -/
def owing (books : Books) (key : String) : Nat :=
  (books.frames.map fun frame => frame.owed.count key).sum

/-- How many heads have begun to push onto a name. -/
def beginning (books : Books) (key : String) : Nat :=
  books.frames.countP fun frame => frame.begun == some key

/-- What is entered between two states of the books: a push of a head is owed until the release is
tried, and it is begun before it is made; no caller pushes, and a failure stays untold until a
problem tells of it. -/
structure Tallied (books : Books) (events : List Event) (later : Books) : Prop where
  owing (key : String) : later.owing key + events.countP (Event.isRelease key) =
    books.owing key + events.countP (Event.isPush .tagHead key)
  begun (key : String) : later.beginning key + events.countP (Event.isPush .tagHead key) ≤
    books.beginning key + events.countP (Event.beginsPush key)
  caller (key : String) : events.countP (Event.isPush .caller key) = 0
  told : later.untold.toList.length + events.countP Event.tellsFailure =
    books.untold.toList.length + events.countP fun event => event.failure?.isSome

theorem Tallied.append {books between later : Books} {first second : List Event}
    (left : books.Tallied first between) (right : between.Tallied second later) :
    books.Tallied (first ++ second) later where
  owing key := by
    have early := left.owing key
    have late := right.owing key
    simp only [List.countP_append]
    omega
  begun key := by
    have early := left.begun key
    have late := right.begun key
    simp only [List.countP_append]
    omega
  caller key := by rw [List.countP_append, left.caller, right.caller]
  told := by
    have early := left.told
    have late := right.told
    simp only [List.countP_append]
    omega

/-- What an event that is neither a push nor a release does to the books of told failures. -/
theorem tallied_of_owing {frames later : List Frame} {event : Event}
    (same : owing ⟨later, none⟩ = owing ⟨frames, none⟩)
    (begun : ∀ key, beginning ⟨later, none⟩ key ≤
      beginning ⟨frames, none⟩ key + if event.beginsPush key then 1 else 0)
    (push : ∀ site key, event.isPush site key = false)
    (release : ∀ key, event.isRelease key = false) (telling : event.tellsFailure = false) :
    Tallied ⟨frames, none⟩ [event] ⟨later, event.failure?⟩ where
  owing key := by
    have owed := congrFun same key
    simp only [List.countP_singleton, push, release, Bool.false_eq_true, ↓reduceIte, Nat.add_zero]
    exact owed
  begun key := by
    simp only [List.countP_singleton, push, Bool.false_eq_true, ↓reduceIte, Nat.add_zero]
    exact begun key
  caller key := by simp only [List.countP_singleton, push, Bool.false_eq_true, ↓reduceIte]
  told := by
    simp only [List.countP_singleton, telling, Bool.false_eq_true, ↓reduceIte]
    cases event.failure? <;> rfl

/-- What an event that leaves the frames as they are does, if it is neither a push nor a release. -/
theorem tallied_of_still {frames : List Frame} {event : Event}
    (push : ∀ site key, event.isPush site key = false)
    (release : ∀ key, event.isRelease key = false) (telling : event.tellsFailure = false) :
    Tallied ⟨frames, none⟩ [event] ⟨frames, event.failure?⟩ :=
  tallied_of_owing rfl (fun _ => Nat.le_add_right _ _) push release telling

theorem tallied_enterTold {frames : List Frame} {event : Event} {later : Books}
    (entered : enterTold frames event = some later) : Tallied ⟨frames, none⟩ [event] later := by
  cases event with
  | noted problem =>
    obtain ⟨harmless, same⟩ := Option.ite_none_left_eq_some.mp entered
    cases same
    exact tallied_of_still (fun _ _ => rfl) (fun _ => rfl) (beq_false_of_ne harmless)
  | entered raw depth =>
    cases entered
    refine tallied_of_owing ?_ (fun key => ?_) (fun _ _ => rfl) (fun _ => rfl) rfl
    · funext key
      exact Nat.zero_add _
    · exact Nat.le_add_right _ _
  | left depth =>
    obtain _ | ⟨⟨begun, _ | _⟩, outer⟩ := frames
    · contradiction
    · cases entered
      refine tallied_of_owing ?_ (fun key => ?_) (fun _ _ => rfl) (fun _ => rfl) rfl
      · funext key
        exact (Nat.zero_add _).symm
      -- A head that began a push and was cut short may end.
      · rw [beginning, beginning, List.countP_cons, Nat.add_assoc]
        exact Nat.le_add_right _ _
    · contradiction
  | activated site action =>
    cases site with
    | tagHead =>
      obtain _ | ⟨⟨_ | _, owed⟩, outer⟩ := frames
      · contradiction
      · cases entered
        refine tallied_of_owing rfl (fun key => ?_) (fun _ _ => rfl) (fun _ => rfl) rfl
        rw [beginning, beginning, List.countP_cons, List.countP_cons]
        exact Nat.le_refl _
      · contradiction
    | bare =>
      cases entered
      exact tallied_of_still (fun _ _ => rfl) (fun _ => rfl) rfl
    | caller => cases frames <;> contradiction
  | pushed site key set =>
    cases site with
    | tagHead =>
      obtain _ | ⟨⟨_ | begun, owed⟩, outer⟩ := frames
      · contradiction
      · contradiction
      · obtain ⟨rfl, same⟩ := Option.ite_none_right_eq_some.mp entered
        cases same
        refine ⟨fun key => ?_, fun key => ?_, fun key => rfl, rfl⟩
        · simp only [owing, List.map_cons, List.sum_cons, List.count_append, List.countP_singleton,
            List.count_singleton, Event.isPush, Event.isRelease, beq_self_eq_true, Bool.true_and,
            Bool.false_eq_true, ↓reduceIte]
          omega
        · simp only [beginning, List.countP_cons, List.countP_nil, Event.isPush, Event.beginsPush,
            Option.some_beq_some, Option.none_beq_some, beq_self_eq_true, Bool.true_and,
            Bool.false_eq_true, ↓reduceIte, Nat.add_zero, Nat.zero_add]
          exact Nat.le_refl _
    | bare =>
      cases entered
      exact ⟨fun key => rfl, fun key => Nat.le_refl _, fun key => rfl, rfl⟩
    | caller => cases frames <;> contradiction
  | popped key set =>
    cases entered
    exact tallied_of_still (fun _ _ => rfl) (fun _ => rfl) rfl
  | released key set =>
    obtain _ | ⟨⟨begun, _ | ⟨first, owed⟩⟩, outer⟩ := frames
    · contradiction
    · contradiction
    · obtain ⟨rfl, same⟩ := Option.ite_none_right_eq_some.mp entered
      cases same
      refine ⟨fun key => ?_, fun key => Nat.le_refl _, fun key => rfl, ?_⟩
      · simp only [owing, List.map_cons, List.sum_cons, List.count_cons, List.countP_singleton,
          Event.isPush, Event.isRelease, Bool.false_eq_true, ↓reduceIte, beq_iff_eq]
        omega
      · cases set <;> rfl
  | refused node depth =>
    cases entered
    exact tallied_of_still (fun _ _ => rfl) (fun _ => rfl) rfl
  | selected key rule =>
    cases entered
    exact tallied_of_still (fun _ _ => rfl) (fun _ => rfl) rfl

theorem tallied_enter {books later : Books} {event : Event}
    (entered : books.enter event = some later) : books.Tallied [event] later := by
  obtain ⟨frames, untold⟩ := books
  cases untold with
  | none => exact tallied_enterTold entered
  | some failure =>
    cases event with
    | noted problem =>
      obtain ⟨told, same⟩ := Option.ite_none_right_eq_some.mp entered
      cases same
      have telling : problem.cause = .takingOff := by
        cases failure <;> cases problem <;> first | rfl | contradiction
      refine ⟨fun _ => rfl, fun _ => Nat.le_refl _, fun _ => rfl, ?_⟩
      simp only [List.countP_singleton, Event.tellsFailure, telling, beq_self_eq_true, ↓reduceIte]
      rfl
    | _ => contradiction

theorem tallied_enterAll {books later : Books} {events : List Event}
    (entered : books.enterAll events = some later) : books.Tallied events later := by
  induction events generalizing books with
  | nil =>
    cases entered
    exact ⟨fun _ => rfl, fun _ => Nat.le_refl _, fun _ => rfl, rfl⟩
  | cons event rest ih =>
    rw [enterAll_cons] at entered
    obtain ⟨between, first, others⟩ := Option.bind_eq_some_iff.mp entered
    exact (tallied_enter first).append (ih others)

theorem untold_of_failure {books later : Books} {event : Event} {failure : Failure}
    (failed : event.failure? = some failure) (entered : books.enter event = some later) :
    later.untold = some failure := by
  obtain ⟨frames, _ | pending⟩ := books
  · cases event with
    | popped key set =>
      cases entered
      exact failed
    | released key set =>
      obtain _ | ⟨⟨begun, _ | ⟨first, owed⟩⟩, outer⟩ := frames
      · contradiction
      · contradiction
      · obtain ⟨_, same⟩ := Option.ite_none_right_eq_some.mp entered
        cases same
        exact failed
    | _ => contradiction
  · cases event <;> contradiction

/-- The event after a failure tells of it. -/
theorem told_next {books later : Books} {event : Event} {failure : Failure} {after : List Event}
    (failed : event.failure? = some failure)
    (entered : books.enterAll (event :: after) = some later) (told : later.untold = none) :
    ∃ problem rest, after = .noted problem :: rest ∧ failure.toldBy problem = true := by
  rw [enterAll_cons] at entered
  obtain ⟨⟨frames, pending⟩, first, others⟩ := Option.bind_eq_some_iff.mp entered
  obtain rfl : pending = some failure := untold_of_failure failed first
  cases after with
  | nil =>
    cases others
    contradiction
  | cons next rest =>
    rw [enterAll_cons] at others
    obtain ⟨_, second, _⟩ := Option.bind_eq_some_iff.mp others
    cases next with
    | noted problem => exact ⟨problem, rest, rfl, (Option.ite_none_right_eq_some.mp second).1⟩
    | _ => contradiction

end Books

namespace Expansion

/-- The height of a stack goes by the pushes, the pops and the releases. -/
theorem Step.height {source target : Expansion} {event : Event} (step : Step source event target)
    (key : String) :
    (target.grammar.setsOn key).length + [event].countP (Event.isPop key) +
        [event].countP (Event.isRelease key) =
      (source.grammar.setsOn key).length + [event].countP (Event.isPush .tagHead key) +
        [event].countP (Event.isPush .bare key) + [event].countP (Event.isPush .caller key) +
        [event].countP (Event.isFailedRelease key) := by
  rw [step.setsOn key]
  simp only [List.countP_singleton]
  cases step with
  | pushed site other alternatives =>
    by_cases same : other = key <;> cases site <;>
      simp [Event.restack, Event.isPop, Event.isRelease, Event.isPush, Event.isFailedRelease, same]
  | @took _ other set grammar kind popped =>
    have taken := Grammar.setsOn_of_pop popped key
    by_cases same : other = key
    · rw [if_pos same.symm] at taken
      rcases kind with rfl | rfl <;>
        simp [Event.restack, Event.isPop, Event.isRelease, Event.isPush, Event.isFailedRelease,
          same, taken]
    · rcases kind with rfl | rfl <;>
        simp [Event.restack, Event.isPop, Event.isRelease, Event.isPush, Event.isFailedRelease,
          same]
  | @missed _ other _ kind failed =>
    rcases kind with rfl | rfl <;> by_cases same : other = key <;>
      simp [Event.restack, Event.isPop, Event.isRelease, Event.isPush, Event.isFailedRelease, same]
  | _ => rfl

variable {source target : Expansion} {events : List Event}

theorem Path.height (path : Path Step source events target) (key : String) :
    (target.grammar.setsOn key).length + events.countP (Event.isPop key) +
        events.countP (Event.isRelease key) =
      (source.grammar.setsOn key).length + events.countP (Event.isPush .tagHead key) +
        events.countP (Event.isPush .bare key) + events.countP (Event.isPush .caller key) +
        events.countP (Event.isFailedRelease key) := by
  induction path with
  | nil state => rfl
  | @cons source middle target event events first rest ih =>
    have step := first.height key
    have split (counts : Event → Bool) :
        (event :: events).countP counts = [event].countP counts + events.countP counts :=
      @List.countP_append _ counts [event] events
    simp only [split]
    omega

/-- Where an event stands in a path, the step that it tells of was taken. -/
theorem Path.at_event {before after : List Event} {event : Event}
    (path : Path Step source (before ++ event :: after) target) :
    ∃ here next, Path Step source before here ∧ Step here event next ∧
      Path Step next after target := by
  induction before generalizing source with
  | nil =>
    obtain _ | ⟨first, rest⟩ := path
    exact ⟨_, _, .nil _, first, rest⟩
  | cons early before ih =>
    obtain _ | ⟨first, rest⟩ := path
    obtain ⟨here, next, reaches, step, goesOn⟩ := ih rest
    exact ⟨here, next, .cons first reaches, step, goesOn⟩

/-- A failure to take a set off leaves the grammar as it is. -/
theorem Step.grammar_of_failure {event : Event} {failure : Failure}
    (step : Step source event target) (failed : event.failure? = some failure) :
    target.grammar = source.grammar := by
  cases step with
  | took kind _ => rcases kind with rfl | rfl <;> contradiction
  | missed kind _ => rfl
  | _ => contradiction

end Expansion

end TextGrammar
