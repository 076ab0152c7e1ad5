import TextGrammar.Proofs.Books
import TextGrammar.Proofs.Chronicle
import TextGrammar.Proofs.Scoping

/-! # The books of a run balance

Whatever is expanded, and however that ends, the books take up its journal and close: they show the
same expansions in progress as before, with every push of a head released once, and every failure
told. In an expansion that is not cut short, every push that a head began was made. One lemma for
each function of the engine; the pushes of a head are carried from where they are made to the end of
their tag.
-/

namespace TextGrammar

open Engine Expansion

/-- As many pushes of heads were made as begun, onto each name. -/
def Event.Completed (events : List Event) : Prop :=
  ∀ key, events.countP (Event.beginsPush key) = events.countP (Event.isPush .tagHead key)

theorem Event.Completed.append {first second : List Event} (left : Completed first)
    (right : Completed second) : Completed (first ++ second) := fun key => by
  rw [List.countP_append, List.countP_append, left key, right key]

namespace Expansion

variable {finished more : Prop} {source middle target : Expansion} {targets keys : List String}

/-- The books take up what happened between two states, and show the same as before. If it was
finished, the pushes that heads began were made. -/
def Squares (finished : Prop) (source target : Expansion) : Prop :=
  ∃ events, Path Step source events target ∧ (∀ frames, Books.Takes frames events frames) ∧
    (finished → Event.Completed events)

/-- In a tag head some pushes were made between two states, and the books show them as owed. If it
was finished, no push is begun that was not made. -/
def Opens (finished : Prop) (targets : List String) (source target : Expansion) : Prop :=
  ∃ events, Path Step source events target ∧
    (∀ owed outer, ∃ begun, (finished → begun = none) ∧
      Books.Takes (⟨none, owed⟩ :: outer) events (⟨begun, owed ++ targets⟩ :: outer)) ∧
    (∀ key ∈ targets, ∃ mark, target.grammar.mark? key = some mark) ∧
    (finished → Event.Completed events)

theorem Squares.nothing (state : Expansion) : Squares finished state state :=
  ⟨[], .nil state, .nil, fun _ _ => rfl⟩

theorem Squares.weaken (weaker : more → finished) (squares : Squares finished source target) :
    Squares more source target := by
  obtain ⟨events, path, takes, completed⟩ := squares
  exact ⟨events, path, takes, completed ∘ weaker⟩

theorem Squares.append (first : Squares finished source middle)
    (second : Squares more middle target) : Squares (finished ∧ more) source target := by
  obtain ⟨early, firstPath, firstTakes, firstDone⟩ := first
  obtain ⟨late, secondPath, secondTakes, secondDone⟩ := second
  exact ⟨early ++ late, firstPath.append secondPath,
    fun frames => (firstTakes frames).append (secondTakes frames),
    fun done => (firstDone done.1).append (secondDone done.2)⟩

/-- What is not finished has nothing more to tell. -/
theorem Squares.unfinished (squares : Squares finished source target) (cut : ¬ more) :
    Squares more source target :=
  squares.weaken fun done => absurd done cut

/-- What is finished at last was finished before. -/
theorem Squares.trans (first : Squares finished source middle) (second : Squares more middle target)
    (through : more → finished) : Squares more source target :=
  (first.append second).weaken fun done => ⟨through done, done⟩

/-- What is always finished may come before anything. -/
theorem Squares.andThen (first : Squares True source middle) (second : Squares more middle target) :
    Squares more source target :=
  first.trans second fun _ => trivial

theorem path_record_noted (state : Expansion) (problems : List Problem) :
    Path Step state (problems.map .noted) (state.record (problems.map .noted)) := by
  induction problems generalizing state with
  | nil => exact .nil state
  | cons problem rest ih =>
    rw [List.map_cons, ← List.singleton_append, record_append]
    exact .cons (.noted state problem) (ih _)

/-- Problems that tell of no failure are noted without a trace in the books. -/
theorem squares_record_noted (state : Expansion) {cause : Cause} (other : cause ≠ .takingOff)
    {problems : List Problem} (caused : cause.OfAll problems) :
    Squares finished state (state.record (problems.map .noted)) := by
  refine ⟨_, path_record_noted state problems, fun frames => Books.takes_noted frames
    fun problem member => (caused problem member).trans_ne other, fun _ key => ?_⟩
  rw [List.countP_map, List.countP_map]
  rfl

/-- A step that the books do not show. -/
theorem Squares.step {event : Event} (taken : Step source event target)
    (takes : ∀ frames, Books.enterTold frames event = some ⟨frames, none⟩)
    (completed : ∀ key, event.beginsPush key = event.isPush .tagHead key) :
    Squares finished source target :=
  ⟨[event], .single taken, fun frames => .single (takes frames), fun _ key => by
    rw [List.countP_singleton, List.countP_singleton, completed]⟩

/-- Nothing is owed by what leaves the books as they are. -/
theorem Squares.opens (squares : Squares finished source target) :
    Opens finished [] source target := by
  obtain ⟨events, path, takes, completed⟩ := squares
  refine ⟨events, path, fun owed outer => ⟨none, fun _ => rfl, ?_⟩, List.forall_mem_nil _,
    completed⟩
  rw [List.append_nil]
  exact takes _

theorem Opens.weaken (weaker : more → finished) (opens : Opens finished targets source target) :
    Opens more targets source target := by
  obtain ⟨events, path, takes, present, completed⟩ := opens
  refine ⟨events, path, fun owed outer => ?_, present, completed ∘ weaker⟩
  obtain ⟨begun, none, taken⟩ := takes owed outer
  exact ⟨begun, none ∘ weaker, taken⟩

theorem Opens.unfinished (opens : Opens finished targets source target) (cut : ¬ more) :
    Opens more targets source target :=
  opens.weaken fun done => absurd done cut

/-- Symbols stay, so what was pushed onto once has a symbol from then on. -/
theorem Path.mark?_mono {events : List Event} {key : String} {mark : Bool}
    (path : Path Step source events target) (marked : source.grammar.mark? key = some mark) :
    target.grammar.mark? key = some mark := by
  rw [path.mark?_eq, marked, foldl_remark_some]

/-- After a part that was finished, a head goes on. -/
theorem Opens.append (first : Opens finished targets source middle) (done : finished)
    (second : Opens more keys middle target) : Opens more (targets ++ keys) source target := by
  obtain ⟨early, firstPath, firstTakes, firstPresent, firstDone⟩ := first
  obtain ⟨late, secondPath, secondTakes, secondPresent, secondDone⟩ := second
  refine ⟨early ++ late, firstPath.append secondPath, fun owed outer => ?_,
    List.forall_mem_append.mpr ⟨fun key member => ?_, secondPresent⟩,
    fun through => (firstDone done).append (secondDone through)⟩
  · obtain ⟨_, none, taken⟩ := firstTakes owed outer
    obtain ⟨begun, noneToo, goesOn⟩ := secondTakes (owed ++ targets) outer
    rw [List.append_assoc] at goesOn
    exact ⟨begun, noneToo, taken.append (none done ▸ goesOn)⟩
  · obtain ⟨mark, marked⟩ := firstPresent key member
    exact ⟨mark, secondPath.mark?_mono marked⟩

/-- What leaves the books as they are may come before the pushes of a head. -/
theorem Squares.before (first : Squares True source middle)
    (second : Opens finished targets middle target) : Opens finished targets source target :=
  first.opens.append trivial second

end Expansion

namespace Run

/-- Taking a set off is told by one event, or by two if it fails. -/
theorem takeOff_events {event : Option RuleSet → Event} {key : String}
    (kind : event = .popped key ∨ event = .released key) (state : Expansion) :
    ∃ events, Path Step state events (takeOff event key state).2 ∧
      ((∃ set, events = [event (some set)]) ∨ ∃ problem, state.grammar.pop key = .error problem ∧
        events = [event none, .noted problem]) := by
  cases popped : state.grammar.pop key with
  | ok outcome =>
    have taken := Step.took kind popped
    refine ⟨_, .single ?_, .inl ⟨outcome.1, rfl⟩⟩
    simpa only [takeOff, popped] using taken
  | error problem =>
    have missed := Step.missed kind popped
    have noted := Step.noted (state.record [event none]) problem
    have failed : takeOff event key state =
        ([problem], state.record [event none, .noted problem]) := by
      simp only [takeOff, popped]
    exact ⟨_, .cons missed (.single (failed ▸ noted)), .inr ⟨problem, rfl, rfl⟩⟩

theorem completed_takeOff {event : Option RuleSet → Event} {key : String}
    (kind : event = .popped key ∨ event = .released key) (set : Option RuleSet)
    (problems : List Problem) : Event.Completed (event set :: problems.map .noted) := by
  intro other
  rw [List.countP_cons, List.countP_cons, List.countP_map, List.countP_map]
  rcases kind with rfl | rfl <;> rfl

/-- A pop action takes a set off, or fails and says so. -/
theorem squares_pop {finished : Prop} (key : String) (state : Expansion) :
    Squares finished state (pop key state).2 := by
  obtain ⟨events, path, ⟨set, rfl⟩ | ⟨problem, failed, rfl⟩⟩ := takeOff_events (.inl rfl) state
  · exact ⟨_, path, fun _ => .single rfl, fun _ => completed_takeOff (.inl rfl) _ []⟩
  · refine ⟨_, path, fun frames => ?_, fun _ => completed_takeOff (.inl rfl) _ [problem]⟩
    refine Books.takes_failure .pop rfl ?_
    rcases Grammar.problem_of_pop failed with ⟨_, rfl⟩ | ⟨_, _, rfl⟩ <;> rfl

/-- A release pays what is owed first. It finds the symbol, even if not a set on it. -/
theorem takes_release {key : String} {mark : Bool} {state : Expansion}
    (marked : state.grammar.mark? key = some mark) :
    ∃ events, Path Step state events (release key state).2 ∧ Event.Completed events ∧
      ∀ begun owed outer, Books.Takes (⟨begun, key :: owed⟩ :: outer) events
        (⟨begun, owed⟩ :: outer) := by
  obtain ⟨events, path, ⟨set, rfl⟩ | ⟨problem, failed, rfl⟩⟩ := takeOff_events (.inr rfl) state
  · exact ⟨_, path, completed_takeOff (.inr rfl) _ [], fun _ _ _ => .single (if_pos rfl)⟩
  · refine ⟨_, path, completed_takeOff (.inr rfl) _ [problem], fun begun owed outer =>
      Books.takes_failure .release (if_pos rfl) ?_⟩
    rcases Grammar.problem_of_pop failed with ⟨missing, _⟩ | ⟨_, _, rfl⟩
    · rw [Grammar.mark?, missing] at marked
      contradiction
    · rfl

theorem squares_select {finished : Prop} (key : String) (origin : Option Place)
    (path : List String) (state : Expansion) :
    Squares finished state (select key origin path state).2 := by
  have selects : Squares finished state _ :=
    .step (.selected state key origin path) (fun _ => rfl) fun _ => rfl
  simp only [select]
  rw [← List.singleton_append, record_append]
  exact selects.trans (squares_record_noted _ (by decide)
    (state.grammar.cause_select key origin path state.rolls)) id

end Run

namespace Engine

/-- An expander whose books balance. -/
def Balanced (inner : Expander) : Prop :=
  ∀ node state, node.Fresh → Squares ((inner node state).1.fatal = none) state (inner node state).2

variable {inner : Expander} (balanced : Balanced inner)
include balanced

theorem squares_expandEach {nodes : List Node} (fresh : ∀ node ∈ nodes, node.Fresh)
    (state : Expansion) :
    Squares ((expandEach inner nodes state).1.fatal = none) state
      (expandEach inner nodes state).2 := by
  induction nodes generalizing state with
  | nil => exact .nothing state
  | cons child rest ih =>
    obtain ⟨childFresh, restFresh⟩ := List.forall_mem_cons.mp fresh
    have first := balanced child state childFresh
    simp only [expandEach, Run.bind_apply]
    cases fatal : (inner child state).1.fatal with
    | some tag => exact first.unfinished (Option.some_ne_none tag)
    | none => exact first.trans (ih restFresh _) fun _ => fatal

theorem squares_expandChildren (node : Node) (rule : String) (state : Expansion) :
    Squares ((expandChildren inner node rule state).1.fatal = none) state
      (expandChildren inner node rule state).2 := by
  have noted : Squares True state _ :=
    squares_record_noted state (by decide) (Scanned.cause_ofRule rule)
  have each := squares_expandEach balanced (fresh_adopt node rule (Scanned.ofRule rule))
    (state.record ((Scanned.ofRule rule).problems.map .noted))
  have both := noted.andThen each
  simp only [expandChildren, Run.bind_apply, Run.note_apply]
  generalize expandEach inner _ _ = outcome at both ⊢
  cases fatal : outcome.1.fatal with
  | some tag => exact both.unfinished (Option.some_ne_none tag)
  | none => exact both.weaken fun _ => fatal

theorem squares_expandNested (rule : String) (state : Expansion) :
    Squares ((expandNested inner rule state).1.isOk) state (expandNested inner rule state).2 := by
  have expanded := balanced (.root rule) state (Node.fresh_root rule)
  refine expanded.weaken fun done => ?_
  change (inner (.root rule) state).1.result.isOk at done
  cases fatal : (inner (.root rule) state).1.fatal with
  | none => rfl
  | some tag =>
    rw [Outcome.result, fatal] at done
    contradiction

theorem squares_expandParts (parts : List String) (state : Expansion) :
    Squares ((expandParts inner parts state).1.result.isOk) state
      (expandParts inner parts state).2 := by
  induction parts generalizing state with
  | nil => exact .nothing state
  | cons part rest ih =>
    have first := squares_expandNested balanced part state
    simp only [expandParts, Run.bind_apply]
    cases result : (expandNested inner part state).1 with
    | error tag => exact first.unfinished Bool.false_ne_true
    | ok node =>
      have others := ih (expandNested inner part state).2
      simp only [Run.bind_apply, Run.pure_apply]
      generalize expandParts inner rest _ = report at others ⊢
      refine (first.trans others fun _ => by rw [result]; rfl).weaken fun done => ?_
      cases through : report.1.result with
      | error tag =>
        rw [through] at done
        contradiction
      | ok texts => rfl

/-- A push is made when its parts are ready, unless an ambiguous tag in one of them came first. -/
theorem squares_bare (action : Action) (state : Expansion) :
    Squares ((activate inner .bare action state).1.result.isOk) state
      (activate inner .bare action state).2 := by
  have begun : Squares True state (Run.begin .bare action state).2 :=
    .step (Run.begin_step .bare action state) (fun _ => rfl) fun _ => rfl
  cases action with
  | push target rule =>
    have parts := squares_expandParts balanced (Text.split ',' rule)
      (Run.begin .bare (.push target rule) state).2
    have ready := begun.andThen parts
    simp only [activate, Run.bind_apply]
    generalize expandParts inner _ _ = report at ready ⊢
    cases result : report.1.result with
    | error tag => exact ready.unfinished Bool.false_ne_true
    | ok alternatives =>
      have pushed : Squares True report.2 (Run.push .bare target alternatives report.2).2 :=
        .step (.pushed report.2 .bare target alternatives) (fun _ => rfl) fun _ => rfl
      rw [result] at ready
      exact (ready.append pushed).weaken fun _ => ⟨rfl, trivial⟩
  | pop target => exact begun.andThen (Run.squares_pop target _)
  | call rule =>
    have expanded := squares_expandNested balanced rule (Run.begin .bare (.call rule) state).2
    have ready := begun.andThen expanded
    simp only [activate, Run.bind_apply]
    generalize expandNested inner rule _ = outcome at ready ⊢
    cases result : outcome.1 with
    | error tag => exact ready.unfinished Bool.false_ne_true
    | ok node =>
      rw [result] at ready
      exact ready

omit balanced in
/-- The head of a tag begins an action that pushes nothing. -/
theorem opens_begin {action : Action} (idle : action.pushes? = none) (state : Expansion) :
    Opens True [] state (Run.begin .tagHead action state).2 := by
  refine ⟨_, .single (Run.begin_step .tagHead action state), fun owed outer => ⟨none, fun _ => rfl,
    ?_⟩, List.forall_mem_nil _, fun _ key => ?_⟩
  · rw [List.append_nil]
    exact .single (by rw [Books.enterTold, idle])
  · simp only [List.countP_singleton, Event.beginsPush, Event.isPush, idle]
    rfl

/-- The head of a tag begins to push, and unless it is cut short, pushes. -/
theorem opens_push (target rule : String) (state : Expansion) :
    Opens ((activate inner .tagHead (.push target rule) state).1.result.isOk)
      (pushedBy (activate inner .tagHead (.push target rule) state).1) state
      (activate inner .tagHead (.push target rule) state).2 := by
  have begins := Run.begin_step .tagHead (.push target rule) state
  have begun (owed : List String) (outer : List Frame) : Books.Takes (⟨none, owed⟩ :: outer)
      [.activated .tagHead (.push target rule)] (⟨some target, owed⟩ :: outer) := .single rfl
  have parts := squares_expandParts balanced (Text.split ',' rule)
    (Run.begin .tagHead (.push target rule) state).2
  simp only [activate, Run.bind_apply]
  generalize expandParts inner _ _ = report at parts ⊢
  obtain ⟨events, path, takes, completed⟩ := parts
  cases result : report.1.result with
  | error tag =>
    -- The head has begun a push that is never made, and owes nothing for it.
    refine ⟨_, .cons begins path, fun owed outer => ⟨some target, ?_, ?_⟩,
      List.forall_mem_nil _, ?_⟩
    · exact fun done => absurd done Bool.false_ne_true
    · rw [show pushedBy _ = [] from rfl, List.append_nil]
      exact (begun owed outer).append (takes _)
    · exact fun done => absurd done Bool.false_ne_true
  | ok alternatives =>
    obtain ⟨set, pushes⟩ := Run.push_step .tagHead target alternatives report.2
    refine ⟨_, .cons begins (path.append (.single pushes)), fun owed outer =>
      ⟨none, fun _ => rfl, ?_⟩, List.forall_mem_singleton.mpr ?_, fun _ key => ?_⟩
    · have pushed : Books.Takes (⟨some target, owed⟩ :: outer) [.pushed .tagHead target set]
          (⟨none, owed ++ [target]⟩ :: outer) := .single (if_pos rfl)
      exact (begun owed outer).append ((takes _).append pushed)
    · have marked := pushes.mark? target
      simp only [Event.remark, ↓reduceIte] at marked
      exact ⟨_, marked⟩
    · have inside := completed (by rw [result]; rfl) key
      simp only [List.countP_cons, List.countP_append, List.countP_nil, Event.beginsPush,
        Event.isPush, Action.pushes?, inside, Option.some_beq_some, beq_self_eq_true,
        Bool.true_and, Bool.false_eq_true, ↓reduceIte, beq_iff_eq]
      omega

theorem opens_activate (action : Action) (state : Expansion) :
    Opens ((activate inner .tagHead action state).1.result.isOk)
      (pushedBy (activate inner .tagHead action state).1) state
      (activate inner .tagHead action state).2 := by
  cases action with
  | push target rule => exact opens_push balanced target rule state
  | pop target =>
    have popped : Squares True _ _ :=
      Run.squares_pop target (Run.begin .tagHead (.pop target) state).2
    exact ((opens_begin rfl state).append trivial popped.opens).weaken fun _ => trivial
  | call rule =>
    have begun : Opens True [] state (Run.begin .tagHead (.call rule) state).2 :=
      opens_begin rfl state
    have expanded := squares_expandNested balanced rule (Run.begin .tagHead (.call rule) state).2
    simp only [activate, Run.bind_apply]
    generalize expandNested inner rule _ = outcome at expanded ⊢
    cases result : outcome.1 with
    | error tag =>
      exact (begun.append trivial expanded.opens).unfinished Bool.false_ne_true
    | ok node =>
      exact (begun.append trivial expanded.opens).weaken fun _ => by rw [result]; rfl

theorem squares_conditionPath (key : String) (steps : Nat) (path : List String)
    (state : Expansion) :
    Squares ((conditionPath inner key steps path state).1.result.isOk) state
      (conditionPath inner key steps path state).2 := by
  induction steps generalizing path state with
  | zero => exact .nothing state
  | succ steps ih =>
    cases asks : state.condition? key path with
    | none =>
      rw [conditionPath_of_none inner steps asks]
      exact .nothing state
    | some condition =>
      have evaluated := squares_expandNested balanced condition state
      rw [conditionPath_of_some inner steps asks, Run.bind_apply]
      generalize expandNested inner condition state = outcome at evaluated ⊢
      cases result : outcome.1 with
      | error tag => exact evaluated.unfinished Bool.false_ne_true
      | ok node =>
        rw [result] at evaluated
        by_cases leads : outcome.2.leads key path node.text = true
        · rw [follow_of_leads inner steps leads]
          exact evaluated.trans (ih _ _) fun _ => rfl
        · rw [follow_of_astray inner steps leads]
          exact evaluated.weaken fun _ => rfl

theorem squares_selectRule (key : String) (origin : Option Place) (state : Expansion) :
    Squares ((selectRule inner key origin state).1.result.isOk) state
      (selectRule inner key origin state).2 := by
  have evaluated := squares_conditionPath balanced key state.limit [] state
  rw [selectRule_apply, Run.bind_apply]
  generalize conditionPath inner key state.limit [] state = outcome at evaluated ⊢
  simp only [choose]
  cases result : outcome.1.result with
  | error tag => exact evaluated.unfinished Bool.false_ne_true
  | ok branches =>
    have selected : Squares True outcome.2 (Run.select key origin branches outcome.2).2 :=
      Run.squares_select key origin branches outcome.2
    exact (evaluated.append selected).weaken fun _ => ⟨by rw [result]; rfl, trivial⟩

omit balanced in
theorem squares_applyModifiers {finished : Prop} (node : Node) (modifiers : List String)
    (state : Expansion) : Squares finished state (applyModifiers node modifiers state).2 := by
  induction modifiers generalizing node state with
  | nil => exact .nothing state
  | cons written rest ih =>
    simp only [applyModifiers, applyModifier, Run.bind_apply, Run.get_apply]
    cases state.grammar.modifier? (ModifierCall.parse written).name with
    | some modifier => exact ih _ _
    | none =>
      have caused : Cause.modifying.OfAll [.missingModifier (ModifierCall.parse written).name] :=
        List.forall_mem_singleton.mpr rfl
      exact (squares_record_noted state (by decide) caused).trans (ih _ _) id

theorem squares_resolveSymbol (node : Node) (symbol : String) (state : Expansion) :
    Squares ((resolveSymbol inner node symbol state).1.fatal = none) state
      (resolveSymbol inner node symbol state).2 := by
  have selected := squares_selectRule balanced symbol (some node.place) state
  simp only [resolveSymbol, Run.bind_apply]
  generalize selectRule inner symbol (some node.place) state = choice at selected ⊢
  cases result : choice.1.result with
  | error tag => exact selected.unfinished (Option.some_ne_none tag)
  | ok rule =>
    rw [result] at selected
    have expanded := squares_expandChildren balanced
      { node.addErrors choice.1.problems with symbol := some symbol }
      (rule.getD (placeholder symbol)) choice.2
    simp only [Run.bind_apply]
    generalize expandChildren inner _ _ _ = outcome at expanded ⊢
    have both := selected.trans expanded fun _ => rfl
    cases fatal : outcome.1.fatal with
    | some tag => exact both.unfinished (Option.some_ne_none tag)
    | none => exact both.trans (squares_applyModifiers _ _ _) fun _ => fatal

theorem opens_openScopes (actions : List Action) (state : Expansion) :
    Opens ((openScopes inner actions state).1.fatal = none)
      (openScopes inner actions state).1.targets state (openScopes inner actions state).2 := by
  induction actions generalizing state with
  | nil => exact (Squares.nothing state).opens
  | cons action rest ih =>
    have first := opens_activate balanced action state
    simp only [openScopes, Run.bind_apply]
    generalize activate inner .tagHead action state = report at first ⊢
    simp only [pushedBy] at first
    cases result : report.1.result with
    | error tag =>
      rw [result] at first
      exact first.unfinished (Option.some_ne_none tag)
    | ok target =>
      rw [result] at first
      exact first.append rfl (ih _)

omit balanced in
/-- The end of a tag releases all that is owed, first to last. -/
theorem takes_closeScopes (targets : List String) (state : Expansion)
    (present : ∀ key ∈ targets, ∃ mark, state.grammar.mark? key = some mark) :
    ∃ events, Path Step state events (closeScopes targets state).2 ∧ Event.Completed events ∧
      ∀ begun outer, Books.Takes (⟨begun, targets⟩ :: outer) events (⟨begun, []⟩ :: outer) := by
  induction targets generalizing state with
  | nil => exact ⟨[], .nil state, fun _ => rfl, fun _ _ => .nil _⟩
  | cons key rest ih =>
    obtain ⟨⟨mark, marked⟩, others⟩ := List.forall_mem_cons.mp present
    obtain ⟨early, released, completed, pays⟩ := Run.takes_release marked
    obtain ⟨late, closes, completedToo, paysRest⟩ := ih (Run.release key state).2 fun key member =>
      (others key member).imp fun _ => released.mark?_mono
    exact ⟨early ++ late, released.append closes, completed.append completedToo,
      fun begun outer => (pays begun rest outer).append (paysRest begun outer)⟩

/-- What happens inside an expansion, from where it has begun to where it can end. -/
def Closes (finished : Prop) (source target : Expansion) : Prop :=
  ∃ events, Path Step source events target ∧
    (∀ outer, ∃ begun, Books.Takes ({} :: outer) events (⟨begun, []⟩ :: outer)) ∧
    (finished → Event.Completed events)

omit balanced in
theorem closes_of_squares {finished : Prop} {source target : Expansion}
    (squares : Squares finished source target) : Closes finished source target := by
  obtain ⟨events, path, takes, completed⟩ := squares
  exact ⟨events, path, fun outer => ⟨none, takes _⟩, completed⟩

omit balanced in
/-- The pushes of a head, what comes of the tag, and the end of the tag. -/
theorem closes_of_opens {finished : Prop} {targets : List String} {source ready : Expansion}
    (opens : Opens finished targets source ready) :
    Closes finished source (closeScopes targets ready).2 := by
  obtain ⟨early, opened, takes, present, completed⟩ := opens
  obtain ⟨late, closed, completedToo, pays⟩ := takes_closeScopes targets ready present
  refine ⟨early ++ late, opened.append closed, fun outer => ?_,
    fun done => (completed done).append completedToo⟩
  obtain ⟨begun, _, owes⟩ := takes [] outer
  exact ⟨begun, owes.append (pays begun outer)⟩

theorem closes_expandTag (node : Node) (state : Expansion) :
    Closes ((expandTag inner node state).1.fatal = none) state (expandTag inner node state).2 := by
  simp only [expandTag]
  cases parsed : TagHead.parse node.raw with
  | error tag => exact closes_of_squares (.nothing state)
  | ok head =>
    have noted : Squares True state (state.record (head.problems.map .noted)) :=
      squares_record_noted state (by decide) (TagHead.cause_parse parsed)
    have opened := noted.before
      (opens_openScopes balanced (head.preactions.map Action.parse) _)
    simp only [Run.bind_apply, Run.note_apply]
    generalize openScopes inner (head.preactions.map Action.parse) _ = scopes at opened ⊢
    cases fatal : scopes.1.fatal with
    | some tag =>
      have unfinished := opened.unfinished (Option.some_ne_none tag)
      exact closes_of_opens unfinished
    | none =>
      simp only [Run.bind_apply]
      generalize resolves : resolveSymbol inner _ head.symbol scopes.2 = outcome
      have inside : Squares (outcome.1.fatal = none) scopes.2 outcome.2 :=
        resolves ▸ squares_resolveSymbol balanced _ head.symbol scopes.2
      have ready := opened.append fatal inside.opens
      rw [List.append_nil] at ready
      exact closes_of_opens ready

theorem closes_expandBody (node : Node) (state : Expansion) :
    Closes ((expandBody inner node state).1.fatal = none) state
      (expandBody inner node state).2 := by
  rcases kind : node.kind with _ | segment
  · simp only [expandBody, kind]
    exact closes_of_squares (squares_expandChildren balanced node node.raw state)
  cases segment with
  | plain =>
    simp only [expandBody, kind]
    exact closes_of_squares (.nothing state)
  | action =>
    have ran := squares_bare balanced (Action.parse node.raw) state
    simp only [expandBody, kind, expandAction, Run.bind_apply]
    generalize activate inner .bare (Action.parse node.raw) state = report at ran ⊢
    cases result : report.1.result with
    | error tag =>
      have unfinished := ran.unfinished (Option.some_ne_none tag)
      exact closes_of_squares unfinished
    | ok _ =>
      rw [result] at ran
      exact closes_of_squares (ran.weaken fun _ => rfl)
  | tag =>
    simp only [expandBody, kind]
    exact closes_expandTag balanced node state

omit balanced in
/-- An expansion begins, goes on to where it can end, and ends. -/
theorem balanced_withRoom {body : Expander}
    (closes : ∀ node state, Closes ((body node state).1.fatal = none) state (body node state).2) :
    Balanced (withRoom body) := by
  intro node state fresh
  cases admission node state with
  | done expanded =>
    rw [withRoom_done body expanded]
    exact .nothing state
  | plain new plain =>
    rw [withRoom_plain body new plain]
    exact .nothing state
  | full new asks full =>
    rw [withRoom_full body new asks full]
    have known : node.begun.Fresh := fresh
    have refused : Squares True state _ :=
      .step (Step.refused known full) (fun _ => rfl) fun _ => rfl
    have caused : Cause.room.OfAll [.recursionLimit state.limit node.raw] :=
      List.forall_mem_singleton.mpr rfl
    exact refused.andThen (squares_record_noted _ (by decide) caused)
  | room new asks going room =>
    rw [withRoom_room body new asks going room]
    obtain ⟨events, inside, takes, completed⟩ := closes node.begun (state.inside node.raw)
    have enters : Step state (.entered node.raw (state.depth + 1)) (state.inside node.raw) :=
      .entered node.raw going room
    have leaves := Run.leave_step (body node.begun (state.inside node.raw)).2
    refine ⟨_, .cons enters (inside.append (.single leaves)), fun frames => ?_, fun done key => ?_⟩
    · obtain ⟨begun, taken⟩ := takes frames
      have opened : Books.Takes frames [.entered node.raw (state.depth + 1)] ({} :: frames) :=
        .single rfl
      have closed : Books.Takes (⟨begun, []⟩ :: frames)
          [.left (body node.begun (state.inside node.raw)).2.depth] frames := .single rfl
      exact opened.append (taken.append closed)
    · have same := completed done key
      simp only [List.countP_cons, List.countP_append, List.countP_nil, Event.beginsPush,
        Event.isPush, same, Bool.false_eq_true, ↓reduceIte]

omit balanced in
theorem balanced_expander {below : Expander} (balanced : Balanced below) (levels : Nat) :
    Balanced (expander below levels) := by
  induction levels with
  | zero => exact balanced_withRoom (closes_expandBody balanced)
  | succ levels ih => exact balanced_withRoom (closes_expandBody ih)

omit balanced in
theorem balanced_idle : Balanced idle :=
  fun _ state _ => .nothing state

end Engine

theorem balanced_expandNode : Balanced expandNode :=
  fun node state fresh =>
    balanced_expander balanced_idle (state.limit - state.depth) node state fresh

theorem balanced_previewNode : Balanced previewNode :=
  balanced_withRoom fun node state => closes_of_squares
    (squares_record_noted state (by decide) (Scanned.cause_ofRule node.raw))

theorem squares_expandOnce (rule : String) (preventRecursion : Bool) (state : Expansion) :
    Squares ((Run.expandOnce (.root rule) preventRecursion state).1.fatal = none) state
      (Run.expandOnce (.root rule) preventRecursion state).2 := by
  cases preventRecursion with
  | true => exact balanced_previewNode _ state (Node.fresh_root rule)
  | false => exact balanced_expandNode _ state (Node.fresh_root rule)

/-- The books of every run balance, however it ends: with a text, with the ceiling hit, or with an
ambiguous tag. They close, so every push that a tag head makes is released once before its tag ends,
first to last. A push that a head begins is made when its parts are ready. If an ambiguous tag in
one of them ends the run it is not made, and nothing is released for it; in a run that gives a tree
every push that was begun was made. The height of a stack is what it was, with the bare pushes and
the failed releases on top and less the pops that found a set. A pop or a release that fails leaves
the grammar as it was, and is told by one problem, which for a release is never that there is no
symbol. -/
theorem expansion_balances (grammar : Grammar) (rule : String) (options : ExpandOptions)
    (rolls : Rolls) :
    let after := (grammar.expandWith rule options rolls).2
    Books.Takes [] after.events [] ∧
    (∀ root, (grammar.expandWith rule options rolls).1 = .ok root →
      Event.Completed after.events ∧ root.errors = after.problems) ∧
    (∀ key, after.events.countP (Event.isRelease key) =
        after.events.countP (Event.isPush .tagHead key) ∧
      after.events.countP (Event.isPush .tagHead key) ≤
        after.events.countP (Event.beginsPush key)) ∧
    (∀ key, (after.grammar.setsOn key).length + after.events.countP (Event.isPop key) =
      (grammar.setsOn key).length + after.events.countP (Event.isPush .bare key) +
        after.events.countP (Event.isFailedRelease key)) ∧
    (after.events.countP Event.tellsFailure =
      after.events.countP fun event => event.failure?.isSome) ∧
    ∀ before event later failure, after.events = before ++ event :: later →
      event.failure? = some failure →
        ∃ here next problem rest, Path Step (.start grammar rolls) before here ∧
          Step here event next ∧ next.grammar = here.grammar ∧
          later = .noted problem :: rest ∧ failure.toldBy problem = true := by
  intro after
  obtain ⟨events, path, takes, completed⟩ :=
    squares_expandOnce rule options.preventRecursion (.start grammar rolls)
  obtain rfl : after.events = events := path.events_eq
  have tallied := Books.tallied_enterAll (takes [])
  have released (key : String) : after.events.countP (Event.isRelease key) =
      after.events.countP (Event.isPush .tagHead key) := by
    have owing : 0 + _ = 0 + _ := tallied.owing key
    rwa [Nat.zero_add, Nat.zero_add] at owing
  have begun (key : String) : after.events.countP (Event.isPush .tagHead key) ≤
      after.events.countP (Event.beginsPush key) := by
    have beginning : 0 + _ ≤ 0 + _ := tallied.begun key
    rwa [Nat.zero_add, Nat.zero_add] at beginning
  refine ⟨takes [], fun root expanded => ⟨completed ?_, ?_⟩, fun key => ⟨released key, begun key⟩,
    fun key => ?_, ?_, fun before event later failure split failed => ?_⟩
  · exact fatal_of_expandRule expanded
  · exact (told_expandRule expanded).noted.symm
  · have height : (after.grammar.setsOn key).length + _ + _ = (grammar.setsOn key).length + _ + _ +
        _ + _ := path.height key
    have paid := released key
    have caller := tallied.caller key
    omega
  · have told := tallied.told
    simpa using told
  · rw [split] at path
    obtain ⟨here, next, reaches, step, _⟩ := path.at_event
    have entered := takes []
    rw [Books.Takes, split, Books.enterAll_append] at entered
    obtain ⟨books, _, others⟩ := Option.bind_eq_some_iff.mp entered
    obtain ⟨problem, rest, follows, told⟩ := Books.told_next failed others rfl
    exact ⟨here, next, problem, rest, reaches, step, step.grammar_of_failure failed, follows, told⟩

/-- A store from which a raid takes what its own tag put there. -/
def raidedStore : Grammar :=
  .ofWritten [("raid", .one "[store:POP][loot:gold]")] {}

/-- The release finds nothing, and there is no well to draw from. -/
theorem expansion_balances_raidedStore :
    let run := raidedStore.expandWith "#[store:grain]raid#[well:POP]" {}
      { stream := fun _ => default }
    run.2.events.countP (Event.isFailedRelease "store") = 1 ∧
      (run.2.grammar.setsOn "store").length = 0 ∧
      ∃ root, run.1 = .ok root ∧
        root.errors = [.nothingToPop "store", .noSymbolToPop "well"] := by
  have balances := expansion_balances raidedStore "#[store:grain]raid#[well:POP]" {}
    { stream := fun _ => default }
  have met : (fun run : Except AmbiguousTag Node × Expansion =>
      (run.2.events.countP (Event.isFailedRelease "store"),
        run.2.events.countP (Event.isPop "store"),
        run.2.events.countP (Event.isPush .bare "store"), run.2.problems, run.1.isOk))
      (raidedStore.expandWith "#[store:grain]raid#[well:POP]" {} { stream := fun _ => default }) =
        (1, 1, 0, [.nothingToPop "store", .noSymbolToPop "well"], true) := by cbv
  have before : (raidedStore.setsOn "store").length = 0 := by decide
  generalize raidedStore.expandWith "#[store:grain]raid#[well:POP]" {}
    { stream := fun _ => default } = run at balances met ⊢
  simp only [Prod.mk.injEq] at met
  obtain ⟨failed, popped, unpushed, problems, expands⟩ := met
  obtain ⟨_, whole, _, heights, _, _⟩ := balances
  have store := heights "store"
  rw [popped, unpushed, failed, before] at store
  cases result : run.1 with
  | error tag =>
    rw [result] at expands
    contradiction
  | ok root =>
    exact ⟨failed, Nat.add_right_cancel store, root, result, (whole root result).2.trans problems⟩

/-- Not every push that a tag head begins is released: it may never be made. -/
theorem push_cut_short_is_not_released :
    ¬ ∀ (grammar : Grammar) (rule : String) (options : ExpandOptions) (rolls : Rolls)
        (key : String),
      (grammar.expandWith rule options rolls).2.events.countP (Event.isRelease key) =
        (grammar.expandWith rule options rolls).2.events.countP (Event.beginsPush key) := by
  intro claim
  have balanced := claim raidedStore "#[store:#corn[or]oats#]raid#" {}
    { stream := fun _ => default } "store"
  have released : (raidedStore.expandWith "#[store:#corn[or]oats#]raid#" {}
      { stream := fun _ => default }).2.events.countP (Event.isRelease "store") = 0 := by cbv
  have begun : (raidedStore.expandWith "#[store:#corn[or]oats#]raid#" {}
      { stream := fun _ => default }).2.events.countP (Event.beginsPush "store") = 1 := by cbv
  rw [released, begun] at balanced
  contradiction

end TextGrammar
