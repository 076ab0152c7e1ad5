import TextGrammar.Proofs.Causes
import TextGrammar.Proofs.Composition

/-! # Every problem reaches the root

A problem is noted in the journal where it is met, and carried upward by hand: from child to parent,
from the parts of a push, from calls and conditions, and from the undoing of pushes. Unless an
ambiguous tag cuts a run short, what it carries is what was noted meanwhile, in the same order. The
ceiling is hit exactly where a problem of this kind is noted.
-/

namespace TextGrammar

open Engine

/-- Whether a problem says that the ceiling was hit. -/
def Problem.isLimit : Problem → Bool
  | .recursionLimit _ _ => true
  | _ => false

theorem Problem.any_isLimit_iff {problems : List Problem} :
    problems.any isLimit = true ↔ ∃ limit raw, recursionLimit limit raw ∈ problems := by
  rw [List.any_eq_true]
  constructor
  · rintro ⟨problem, member, limited⟩
    cases problem with
    | recursionLimit limit raw => exact ⟨limit, raw, member⟩
    | _ => contradiction
  · rintro ⟨limit, raw, member⟩
    exact ⟨_, member, rfl⟩

/-- The problem that an event notes, if it does. -/
def Event.problem? : Event → Option Problem
  | .noted problem => some problem
  | _ => none

/-- Only want of room hits the ceiling. -/
theorem Cause.OfAll.isLimit {cause : Cause} (other : cause ≠ .room) {problems : List Problem}
    (caused : cause.OfAll problems) : problems.any Problem.isLimit = false := by
  refine List.any_eq_false.mpr fun problem member limited => other ?_
  rw [← caused problem member]
  cases problem <;> first | rfl | contradiction

namespace Expansion

/-- The problems met, in order. -/
def problems (state : Expansion) : List Problem :=
  state.events.filterMap Event.problem?

/-- Between two states some problems were met, in this order, and the ceiling was hit if one of them
says so. -/
structure Told (source target : Expansion) (met : List Problem) : Prop where
  noted : target.problems = source.problems ++ met
  hit : target.tripped = (source.tripped || met.any Problem.isLimit)

variable {source middle target : Expansion} {early late met : List Problem}

theorem Told.nothing (state : Expansion) : Told state state [] where
  noted := (List.append_nil _).symm
  hit := (Bool.or_false _).symm

theorem Told.append (first : Told source middle early) (second : Told middle target late) :
    Told source target (early ++ late) where
  noted := by rw [second.noted, first.noted, List.append_assoc]
  hit := by rw [second.hit, first.hit, List.any_append, Bool.or_assoc]

theorem problems_of_journal {events : List Event}
    (journal : target.journal = events.reverse ++ source.journal)
    (notes : events.filterMap Event.problem? = met) :
    target.problems = source.problems ++ met := by
  simp only [problems, Expansion.events, journal, List.reverse_append, List.reverse_reverse,
    List.filterMap_append, notes]

/-- Events in the journal tell the problems among them, if none hits the ceiling. -/
theorem told_of_journal {events : List Event}
    (journal : target.journal = events.reverse ++ source.journal)
    (tripped : target.tripped = source.tripped)
    (notes : events.filterMap Event.problem? = met) (harmless : met.any Problem.isLimit = false) :
    Told source target met where
  noted := problems_of_journal journal notes
  hit := by rw [harmless, Bool.or_false, tripped]

/-- A refusal is told, and hits the ceiling. -/
theorem told_refusing (state : Expansion) (node : Node) :
    Told state (state.refusing node) [.recursionLimit state.limit node.raw] where
  noted := problems_of_journal rfl rfl
  hit := (Bool.or_true _).symm

theorem filterMap_noted (met : List Problem) :
    (met.map Event.noted).filterMap Event.problem? = met := by
  rw [List.filterMap_map]
  exact List.filterMap_some

/-- A report that was not cut short tells what was met. -/
def Reports {α : Type} (source : Expansion) (outcome : Report α × Expansion) : Prop :=
  ∀ value, outcome.1.result = .ok value → Told source outcome.2 outcome.1.problems

/-- A node whose expansion was not cut short carries what was met, behind what it carried. -/
def Carries (source : Expansion) (node : Node) (outcome : Outcome × Expansion) : Prop :=
  outcome.1.fatal = none →
    ∃ met, outcome.1.node.errors = node.errors ++ met ∧ Told source outcome.2 met

/-- An expander has its nodes carry what was met. -/
def Faithful (inner : Expander) : Prop :=
  ∀ node state, Carries state node (inner node state)

end Expansion

open Expansion

namespace Run

theorem told_note (state : Expansion) {met : List Problem}
    (harmless : met.any Problem.isLimit = false) : Told state (note met state).2 met :=
  told_of_journal rfl rfl (filterMap_noted met) harmless

theorem told_takeOff {event : Option RuleSet → Event} {key : String}
    (kind : event = .popped key ∨ event = .released key) (state : Expansion) :
    Told state (takeOff event key state).2 (takeOff event key state).1 := by
  have silent (set : Option RuleSet) : (event set).problem? = none := by
    rcases kind with rfl | rfl <;> rfl
  cases popped : state.grammar.pop key with
  | ok outcome =>
    simp only [takeOff, popped]
    exact told_of_journal rfl rfl (List.filterMap_cons_none (silent _)) rfl
  | error problem =>
    simp only [takeOff, popped]
    have caused : Cause.takingOff.OfAll [problem] :=
      List.forall_mem_singleton.mpr (Grammar.cause_pop popped)
    have harmless := caused.isLimit (by decide)
    exact told_of_journal rfl rfl (List.filterMap_cons_none (silent _)) harmless

theorem told_select (key : String) (origin : Option Place) (path : List String)
    (state : Expansion) :
    Told state (select key origin path state).2 (select key origin path state).1.2 :=
  told_of_journal rfl rfl (filterMap_noted _)
    ((state.grammar.cause_select key origin path state.rolls).isLimit (by decide))

end Run

namespace Engine

variable {inner : Expander} (faithful : Faithful inner)
include faithful

theorem told_expandEach {nodes : List Node} (fresh : ∀ node ∈ nodes, node.Fresh)
    (state : Expansion) (through : (expandEach inner nodes state).1.fatal = none) :
    Told state (expandEach inner nodes state).2 (expandEach inner nodes state).1.errors := by
  induction nodes generalizing state with
  | nil => exact .nothing state
  | cons child rest ih =>
    have first := faithful child state
    simp only [expandEach, Run.bind_apply] at through ⊢
    generalize inner child state = outcome at first through ⊢
    cases fatal : outcome.1.fatal with
    | some tag =>
      simp only [fatal] at through
      contradiction
    | none =>
      obtain ⟨met, errors, told⟩ := first fatal
      rw [(fresh child List.mem_cons_self).2, List.nil_append] at errors
      simp only [fatal] at through ⊢
      have others := ih (fun node member => fresh node (List.mem_cons_of_mem _ member)) outcome.2
        through
      exact errors ▸ told.append others

theorem carries_expandChildren (node : Node) (rule : String) (state : Expansion) :
    Carries state node (expandChildren inner node rule state) := by
  have noted := Run.told_note state ((Scanned.cause_ofRule rule).isLimit (by decide))
  have children := told_expandEach faithful (fresh_adopt node rule (Scanned.ofRule rule))
    (Run.note (Scanned.ofRule rule).problems state).2
  simp only [expandChildren, Run.bind_apply]
  generalize expandEach inner _ _ = outcome at children ⊢
  cases fatal : outcome.1.fatal with
  | some tag => exact fun through => by contradiction
  | none =>
    intro through
    refine ⟨_, ?_, noted.append (children fatal)⟩
    exact List.append_assoc _ _ _

theorem told_expandNested (rule : String) (state : Expansion) {node : Node}
    (through : (expandNested inner rule state).1 = .ok node) :
    Told state (expandNested inner rule state).2 node.errors := by
  have expanded := faithful (.root rule) state
  simp only [expandNested, Run.bind_apply, Run.pure_apply] at through ⊢
  generalize inner (.root rule) state = outcome at expanded through ⊢
  cases fatal : outcome.1.fatal with
  | some tag => simp only [Outcome.result, fatal, reduceCtorEq] at through
  | none =>
    simp only [Outcome.result, fatal, Except.ok.injEq] at through
    obtain ⟨met, errors, told⟩ := expanded fatal
    rw [← through, errors]
    exact told

theorem reports_expandParts (parts : List String) (state : Expansion) :
    Reports state (expandParts inner parts state) := by
  induction parts generalizing state with
  | nil => exact fun _ _ => .nothing state
  | cons part rest ih =>
    have first := @told_expandNested _ faithful part state
    simp only [expandParts, Run.bind_apply]
    generalize expandNested inner part state = outcome at first ⊢
    cases result : outcome.1 with
    | error tag => exact fun _ through => by contradiction
    | ok node =>
      intro texts through
      have others := ih outcome.2
      simp only [Run.bind_apply, Run.pure_apply] at through ⊢
      generalize expandParts inner rest outcome.2 = report at others through ⊢
      cases parts : report.1.result with
      | error tag =>
        rw [parts] at through
        contradiction
      | ok texts => exact (first result).append (others texts parts)

theorem reports_activate (site : Site) (action : Action) (state : Expansion) :
    Reports state (activate inner site action state) := by
  have begun : Told state (Run.begin site action state).2 [] := told_of_journal rfl rfl rfl rfl
  cases action with
  | push target rule =>
    have parts := reports_expandParts faithful (Text.split ',' rule)
      (Run.begin site (.push target rule) state).2
    simp only [activate, Run.bind_apply]
    generalize expandParts inner _ _ = report at parts ⊢
    cases result : report.1.result with
    | error tag => exact fun _ through => by contradiction
    | ok alternatives =>
      intro _ _
      have pushed : Told report.2 (Run.push site target alternatives report.2).2 [] :=
        told_of_journal rfl rfl rfl rfl
      have whole := (begun.append (parts alternatives result)).append pushed
      rwa [List.nil_append, List.append_nil] at whole
  | pop target => exact fun _ _ => begun.append (Run.told_takeOff (.inl rfl) _)
  | call rule =>
    have expanded := @told_expandNested _ faithful rule (Run.begin site (.call rule) state).2
    simp only [activate, Run.bind_apply]
    generalize expandNested inner rule _ = outcome at expanded ⊢
    cases result : outcome.1 with
    | error tag => exact fun _ through => by contradiction
    | ok node => exact fun _ _ => begun.append (expanded result)

theorem reports_conditionPath (key : String) (steps : Nat) (path : List String)
    (state : Expansion) : Reports state (conditionPath inner key steps path state) := by
  induction steps generalizing path state with
  | zero => exact fun _ _ => .nothing state
  | succ steps ih =>
    cases found : state.condition? key path with
    | none =>
      rw [conditionPath_of_none inner steps found]
      exact fun _ _ => .nothing state
    | some condition =>
      have evaluated := @told_expandNested _ faithful condition state
      rw [conditionPath_of_some inner steps found, Run.bind_apply]
      generalize expandNested inner condition state = outcome at evaluated ⊢
      cases result : outcome.1 with
      | error tag => exact fun _ through => by contradiction
      | ok node =>
        by_cases leads : outcome.2.leads key path node.text = true
        · rw [follow_of_leads inner steps leads]
          exact fun branches through =>
            (evaluated result).append (ih (path ++ [node.text]) outcome.2 branches through)
        · rw [follow_of_astray inner steps leads]
          exact fun _ _ => evaluated result

theorem reports_selectRule (key : String) (origin : Option Place) (state : Expansion) :
    Reports state (selectRule inner key origin state) := by
  have path := reports_conditionPath faithful key state.limit [] state
  rw [selectRule_apply, Run.bind_apply]
  generalize conditionPath inner key state.limit [] state = report at path ⊢
  cases result : report.1.result with
  | error tag =>
    simp only [choose, result]
    exact fun _ through => by contradiction
  | ok branches =>
    simp only [choose, result]
    exact fun _ _ => (path branches result).append (Run.told_select key origin branches report.2)

omit faithful in
theorem carries_applyModifiers (node : Node) (modifiers : List String) (state : Expansion) :
    ∃ met, (applyModifiers node modifiers state).1.errors = node.errors ++ met ∧
      Told state (applyModifiers node modifiers state).2 met := by
  induction modifiers generalizing node state with
  | nil => exact ⟨[], (List.append_nil _).symm, .nothing state⟩
  | cons written rest ih =>
    simp only [applyModifiers, applyModifier, Run.bind_apply, Run.get_apply]
    cases state.grammar.modifier? (ModifierCall.parse written).name with
    | some modifier => exact ih { node with text := modifier node.text _ } state
    | none =>
      have missing : Told state
          (Run.note [.missingModifier (ModifierCall.parse written).name] state).2 [_] :=
        Run.told_note state rfl
      obtain ⟨met, errors, told⟩ := ih _ _
      refine ⟨_, ?_, missing.append told⟩
      exact errors.trans (List.append_assoc _ _ _)

theorem carries_resolveSymbol (node : Node) (symbol : String) (state : Expansion) :
    Carries state node (resolveSymbol inner node symbol state) := by
  have selected := reports_selectRule faithful symbol (some node.place) state
  simp only [resolveSymbol, Run.bind_apply]
  generalize selectRule inner symbol (some node.place) state = choice at selected ⊢
  cases result : choice.1.result with
  | error tag => exact fun through => by contradiction
  | ok rule =>
    have expanded := carries_expandChildren faithful
      { node.addErrors choice.1.problems with symbol := some symbol }
      (rule.getD (placeholder symbol)) choice.2
    simp only [Run.bind_apply]
    generalize expandChildren inner _ _ _ = outcome at expanded ⊢
    cases fatal : outcome.1.fatal with
    | some tag => exact fun through => by contradiction
    | none =>
      intro _
      obtain ⟨met, errors, told⟩ := expanded fatal
      obtain ⟨more, later, modified⟩ :=
        carries_applyModifiers outcome.1.node outcome.1.node.modifiers outcome.2
      refine ⟨_, ?_, ((selected rule result).append told).append modified⟩
      calc _ = outcome.1.node.errors ++ more := later
        _ = node.errors ++ choice.1.problems ++ met ++ more := by rw [errors]; rfl
        _ = _ := by rw [List.append_assoc, List.append_assoc, List.append_assoc]

theorem told_openScopes (actions : List Action) (state : Expansion)
    (through : (openScopes inner actions state).1.fatal = none) :
    Told state (openScopes inner actions state).2 (openScopes inner actions state).1.problems := by
  induction actions generalizing state with
  | nil => exact .nothing state
  | cons action rest ih =>
    have first := reports_activate faithful .tagHead action state
    simp only [openScopes, Run.bind_apply] at through ⊢
    generalize activate inner .tagHead action state = report at first through ⊢
    cases result : report.1.result with
    | error tag =>
      simp only [result] at through
      contradiction
    | ok target =>
      simp only [result] at through ⊢
      exact (first target result).append (ih report.2 through)

omit faithful in
theorem told_closeScopes (keys : List String) (state : Expansion) :
    Told state (closeScopes keys state).2 (closeScopes keys state).1 := by
  induction keys generalizing state with
  | nil => exact .nothing state
  | cons key rest ih => exact (Run.told_takeOff (.inr rfl) state).append (ih _)

theorem carries_expandTag (node : Node) (state : Expansion) :
    Carries state node (expandTag inner node state) := by
  simp only [expandTag]
  cases parsed : TagHead.parse node.raw with
  | error tag => exact fun through => by contradiction
  | ok head =>
    have noted := Run.told_note state ((TagHead.cause_parse parsed).isLimit (by decide))
    have opened := told_openScopes faithful (head.preactions.map Action.parse)
      (Run.note head.problems state).2
    simp only [Run.bind_apply]
    generalize openScopes inner _ _ = scopes at opened ⊢
    cases fatal : scopes.1.fatal with
    | some tag => exact fun through => by contradiction
    | none =>
      simp only [Run.bind_apply]
      intro through
      have resolved := carries_resolveSymbol faithful _ head.symbol scopes.2 through
      generalize resolveSymbol inner _ head.symbol scopes.2 = outcome at resolved through ⊢
      obtain ⟨met, errors, told⟩ := resolved
      -- The order is that of the run: the head, its actions, its symbol, and the undoing.
      refine ⟨_, ?_, ((noted.append (opened fatal)).append told).append
        (told_closeScopes scopes.1.targets outcome.2)⟩
      change outcome.1.node.errors ++ _ = _
      rw [errors]
      change node.errors ++ head.problems ++ scopes.1.problems ++ met ++ _ = _
      simp only [List.append_assoc]

theorem carries_expandAction (node : Node) (state : Expansion) :
    Carries state node (expandAction inner node state) := by
  have ran := reports_activate faithful .bare (Action.parse node.raw) state
  simp only [expandAction, Run.bind_apply]
  generalize activate inner .bare (Action.parse node.raw) state = report at ran ⊢
  cases result : report.1.result with
  | error tag => exact fun through => by contradiction
  | ok target => exact fun _ => ⟨_, rfl, ran target result⟩

theorem carries_expandBody (node : Node) (state : Expansion) :
    Carries state node (expandBody inner node state) := by
  rcases kind : node.kind with _ | segment
  · simp only [expandBody, kind]
    exact carries_expandChildren faithful node node.raw state
  cases segment with
  | plain =>
    simp only [expandBody, kind]
    exact fun _ => ⟨[], (List.append_nil _).symm, .nothing state⟩
  | action =>
    simp only [expandBody, kind]
    exact carries_expandAction faithful node state
  | tag =>
    simp only [expandBody, kind]
    exact carries_expandTag faithful node state

omit faithful in
theorem carries_withRoom {body : Expander} (carries : Faithful body) :
    Faithful (withRoom body) := by
  intro node state
  cases admission node state with
  | done expanded =>
    rw [withRoom_done body expanded]
    exact fun _ => ⟨[], (List.append_nil _).symm, .nothing state⟩
  | plain new plain =>
    rw [withRoom_plain body new plain]
    exact fun _ => ⟨[], (List.append_nil _).symm, .nothing state⟩
  | full new asks full =>
    rw [withRoom_full body new asks full]
    exact fun _ => ⟨_, rfl, told_refusing state node.begun⟩
  | room new asks going room =>
    rw [withRoom_room body new asks going room, Run.bind_apply]
    have ran := carries node.begun (state.inside node.raw)
    generalize body node.begun (state.inside node.raw) = outcome at ran ⊢
    intro through
    obtain ⟨met, errors, told⟩ := ran through
    have entered : Told state (state.inside node.raw) [] := told_of_journal rfl rfl rfl rfl
    have left : Told outcome.2 (Run.leave outcome.2).2 [] := told_of_journal rfl rfl rfl rfl
    refine ⟨met, errors, ?_⟩
    have whole := (entered.append told).append left
    rwa [List.nil_append, List.append_nil] at whole

omit faithful in
theorem faithful_expander {below : Expander} (faithful : Faithful below) (levels : Nat) :
    Faithful (expander below levels) := by
  induction levels with
  | zero => exact carries_withRoom (carries_expandBody faithful)
  | succ levels ih => exact carries_withRoom (carries_expandBody ih)

end Engine

theorem faithful_idle : Faithful idle :=
  fun _ state _ => ⟨[], (List.append_nil _).symm, .nothing state⟩

theorem faithful_expandNode : Faithful expandNode :=
  fun node state => faithful_expander faithful_idle (state.limit - state.depth) node state

theorem faithful_previewNode : Faithful previewNode := by
  refine carries_withRoom fun node state _ => ⟨_, rfl, ?_⟩
  exact Run.told_note state ((Scanned.cause_ofRule node.raw).isLimit (by decide))

theorem carries_expandOnce (node : Node) (preventRecursion : Bool) (state : Expansion) :
    Carries state node (Run.expandOnce node preventRecursion state) := by
  cases preventRecursion with
  | true => exact faithful_previewNode node state
  | false => exact faithful_expandNode node state

/-- A run gives a tree exactly if no ambiguous tag cuts its root short. -/
theorem fatal_of_expandRule {rule : String} {options : ExpandOptions} {state : Expansion}
    {root : Node} (expanded : (Run.expandRule rule options state).1 = .ok root) :
    (Run.expandOnce (.root rule) options.preventRecursion state).1.fatal = none := by
  simp only [Run.expandRule, Run.bind_apply, Run.pure_apply, Outcome.result] at expanded
  cases fatal : (Run.expandOnce (.root rule) options.preventRecursion state).1.fatal with
  | none => rfl
  | some tag =>
    rw [fatal] at expanded
    contradiction

/-- The root of a run carries what was met in it. -/
theorem told_expandRule {rule : String} {options : ExpandOptions} {state : Expansion}
    {root : Node} (expanded : (Run.expandRule rule options state).1 = .ok root) :
    Told state (Run.expandRule rule options state).2 root.errors := by
  have fatal := fatal_of_expandRule expanded
  obtain ⟨met, errors, told⟩ :=
    carries_expandOnce (.root rule) options.preventRecursion state fatal
  simp only [Run.expandRule, Run.bind_apply, Run.pure_apply, Outcome.result, fatal]
    at expanded told ⊢
  have same : root.errors = met := by
    cases expanded
    split <;> exact errors
  exact same ▸ told

/-- The root of an expansion carries exactly the problems that were noted in it. -/
theorem mem_root_errors_iff {grammar : Grammar} {rule : String} {options : ExpandOptions}
    {rolls : Rolls} {root : Node}
    (expanded : (grammar.expandWith rule options rolls).1 = .ok root) {problem : Problem} :
    problem ∈ root.errors ↔
      .noted problem ∈ (grammar.expandWith rule options rolls).2.events := by
  have told : Told (start grammar rolls) (grammar.expandWith rule options rolls).2 root.errors :=
    told_expandRule expanded
  have carried : (grammar.expandWith rule options rolls).2.problems = root.errors := told.noted
  rw [← carried, Expansion.problems, List.mem_filterMap]
  constructor
  · rintro ⟨event, member, notes⟩
    cases event with
    | noted other => exact Option.some.inj notes ▸ member
    | _ => contradiction
  · intro member
    exact ⟨_, member, rfl⟩

/-- The root of a run that no ambiguous tag cut short carries every problem that was met in it, once
and in the order in which they were met; and the ceiling was hit exactly if one of them says so. -/
theorem root_errors_eq_problems {grammar : Grammar} {rule : String} {options : ExpandOptions}
    {rolls : Rolls} {root : Node}
    (expanded : (grammar.expandWith rule options rolls).1 = .ok root) :
    root.errors = (grammar.expandWith rule options rolls).2.problems ∧
      ((grammar.expandWith rule options rolls).2.tripped = true ↔
        ∃ limit raw, .recursionLimit limit raw ∈ root.errors) := by
  have told : Told (start grammar rolls) (grammar.expandWith rule options rolls).2 root.errors :=
    told_expandRule expanded
  exact ⟨told.noted.symm, by rw [told.hit]; exact Problem.any_isLimit_iff⟩

/-- A rule that calls itself, with room for four expansions. -/
def longLoop : Grammar :=
  .ofWritten [("a", .one "#a#")] { maxDepth := 4 }

/-- The root carries what was met in the part of a push, below a tag, in its modifier, and in an
action that found no room any more. -/
theorem root_errors_eq_problems_longLoop :
    ∃ root, (longLoop.expandWith "#[x:#q#]a.loud# [y:POP]" {} { stream := fun _ => default }).1 =
        .ok root ∧
      (longLoop.expandWith "#[x:#q#]a.loud# [y:POP]" {} { stream := fun _ => default }).2.problems =
        [.missingSymbol "q", .recursionLimit 4 "a", .missingModifier "loud",
          .recursionLimit 4 "y:POP"] ∧
      (longLoop.expandWith "#[x:#q#]a.loud# [y:POP]" {} { stream := fun _ => default }).2.tripped =
        true := by
  have carried : (longLoop.expandWith "#[x:#q#]a.loud# [y:POP]" {}
      { stream := fun _ => default }).1.toOption.map (·.errors) =
        some [.missingSymbol "q", .recursionLimit 4 "a", .missingModifier "loud",
          .recursionLimit 4 "y:POP"] := by cbv
  cases expanded : (longLoop.expandWith "#[x:#q#]a.loud# [y:POP]" {}
      { stream := fun _ => default }).1 with
  | error tag =>
    rw [expanded] at carried
    contradiction
  | ok root =>
    rw [expanded] at carried
    have errors : root.errors = _ := Option.some.inj carried
    obtain ⟨same, hit⟩ := root_errors_eq_problems expanded
    refine ⟨root, rfl, same.symm.trans errors, hit.mpr ⟨4, "a", ?_⟩⟩
    rw [errors]
    exact List.mem_cons_of_mem _ List.mem_cons_self

end TextGrammar
