import TextGrammar.Proofs.Equations

/-! # Every run is an episode

One lemma for each function of the engine, over any expander that runs in episodes for the levels
below; the levels are then tied together by induction. An ambiguous tag takes an early way out of
every function here, and it too leads through an episode.
-/

namespace TextGrammar

open Expansion Run

namespace Engine

variable {inner : Expander} (plays : Plays inner)
include plays

theorem leads_expandEach {nodes : List Node} (fresh : ∀ node ∈ nodes, node.Fresh)
    (state : Expansion) : Leads [] state (expandEach inner nodes state).2 := by
  induction nodes generalizing state with
  | nil => exact .done state
  | cons child rest ih =>
    have first := plays.leads (fresh child List.mem_cons_self) state
    simp only [expandEach, bind_apply]
    cases (inner child state).1.fatal with
    | some tag => exact first
    | none =>
      have others := ih fun node member => fresh node (List.mem_cons_of_mem _ member)
      exact first.trans (others _)

omit plays in
theorem fresh_adopt (node : Node) (rule : String) (scanned : Scanned) :
    ∀ child ∈ (node.adopt rule scanned).children, child.Fresh := by
  intro child member
  obtain ⟨index, bound, rfl⟩ := List.mem_mapIdx.mp member
  exact Node.fresh_ofSegment _ _ _

theorem leads_expandChildren (node : Node) (rule : String) (state : Expansion) :
    Leads [] state (expandChildren inner node rule state).2 := by
  have noted := leads_record_noted state (Scanned.ofRule rule).problems
  have each := noted.trans
    (leads_expandEach plays (fresh_adopt node rule (Scanned.ofRule rule)) _)
  simp only [expandChildren, bind_apply, note_apply]
  generalize expandEach inner _ _ = outcome at each ⊢
  cases outcome.1.fatal <;> exact each

theorem leads_expandNested (rule : String) (state : Expansion) :
    Leads [] state (expandNested inner rule state).2 :=
  plays.leads (Node.fresh_root rule) state

theorem leads_expandParts (parts : List String) (state : Expansion) :
    Leads [] state (expandParts inner parts state).2 := by
  induction parts generalizing state with
  | nil => exact .done state
  | cons part rest ih =>
    have first := leads_expandNested plays part state
    simp only [expandParts, bind_apply]
    cases (expandNested inner part state).1 with
    | error tag => exact first
    | ok node => exact first.trans (ih _)

omit plays in
theorem leads_pop (site : Site) (target : String) (state : Expansion) :
    Leads [] state (activate inner site (.pop target) state).2 := by
  have begins := begin_step site (.pop target) state
  obtain ⟨set, middle, pops, notes⟩ := takeOff_steps (.inl rfl) (begin site (.pop target) state).2
  have popped : Leads [] state middle := ⟨_, .pop begins pops⟩
  exact popped.trans (notes ▸ leads_record_noted middle _)

/-- What an action leads through: it begins, and a push that gets so far comes last. -/
theorem activate_push (site : Site) (target rule : String) (state : Expansion) :
    ∃ ready, Leads [] (begin site (.push target rule) state).2 ready ∧
      ((∃ tag, (activate inner site (.push target rule) state).1.result = .error tag) ∧
          (activate inner site (.push target rule) state).2 = ready ∨
        (activate inner site (.push target rule) state).1.result = .ok (some target) ∧
          ∃ alternatives, (activate inner site (.push target rule) state).2 =
            (push site target alternatives ready).2) := by
  refine ⟨_, leads_expandParts plays (Text.split ',' rule) _, ?_⟩
  simp only [activate, bind_apply]
  cases (expandParts inner (Text.split ',' rule) (begin site (.push target rule) state).2).1.result
    with
  | error tag => exact .inl ⟨⟨tag, rfl⟩, rfl⟩
  | ok alternatives => exact .inr ⟨rfl, alternatives, rfl⟩

omit plays in
/-- The names that an action left pushed onto. -/
def pushedBy (report : Report (Option String)) : List String :=
  match report.result with
  | .ok target => target.toList
  | .error _ => []

/-- An action of a tag head keeps the name it pushed onto. -/
theorem leads_activate_head (action : Action) (state : Expansion) :
    Leads (pushedBy (activate inner .tagHead action state).1) state
      (activate inner .tagHead action state).2 := by
  have begins := begin_step .tagHead action state
  have begun := Leads.quiet begins trivial
  cases action with
  | push target rule =>
    obtain ⟨ready, ⟨events, parts⟩, outcome⟩ := activate_push plays .tagHead target rule state
    rcases outcome with ⟨⟨tag, failed⟩, stops⟩ | ⟨succeeded, alternatives, pushes⟩
    · simp only [pushedBy, failed, stops]
      exact begun.trans ⟨events, parts⟩
    · simp only [pushedBy, succeeded, pushes, Option.toList_some]
      obtain ⟨set, step⟩ := push_step .tagHead target alternatives ready
      exact ⟨_, .headPush begins parts step⟩
  | pop target => exact leads_pop .tagHead target state
  | call rule =>
    have expanded := begun.trans (leads_expandNested plays rule _)
    simp only [activate, bind_apply]
    generalize expandNested inner rule _ = outcome at expanded ⊢
    cases outcome.1 <;> exact expanded

/-- An action that is no push, and a push that nothing undoes, is over when it is over. -/
theorem leads_activate (site : Site) (free : site ≠ .tagHead) (action : Action)
    (state : Expansion) : Leads [] state (activate inner site action state).2 := by
  have begins := begin_step site action state
  have begun := Leads.quiet begins trivial
  cases action with
  | push target rule =>
    obtain ⟨ready, ⟨events, parts⟩, outcome⟩ := activate_push plays site target rule state
    rcases outcome with ⟨_, stops⟩ | ⟨_, alternatives, pushes⟩
    · rw [stops]
      exact begun.trans ⟨events, parts⟩
    · rw [pushes]
      obtain ⟨set, step⟩ := push_step site target alternatives ready
      exact ⟨_, .freePush free begins parts step⟩
  | pop target => exact leads_pop site target state
  | call rule =>
    have expanded := begun.trans (leads_expandNested plays rule _)
    simp only [activate, bind_apply]
    generalize expandNested inner rule _ = outcome at expanded ⊢
    cases outcome.1 <;> exact expanded

theorem leads_conditionPath (key : String) (steps : Nat) (path : List String)
    (state : Expansion) : Leads [] state (conditionPath inner key steps path state).2 := by
  induction steps generalizing path state with
  | zero => exact .done state
  | succ steps ih =>
    cases asks : state.condition? key path with
    | none =>
      rw [conditionPath_of_none inner steps asks]
      exact .done state
    | some condition =>
      have evaluated := leads_expandNested plays condition state
      rw [conditionPath_of_some inner steps asks, bind_apply]
      generalize expandNested inner condition state = outcome at evaluated ⊢
      cases outcome.1 with
      | error tag => exact evaluated
      | ok node =>
        by_cases leads : outcome.2.leads key path node.text = true
        · rw [follow_of_leads inner steps leads]
          exact evaluated.trans (ih _ _)
        · rw [follow_of_astray inner steps leads]
          exact evaluated

theorem leads_selectRule (key : String) (origin : Option Place) (state : Expansion) :
    Leads [] state (selectRule inner key origin state).2 := by
  have evaluated := leads_conditionPath plays key state.limit [] state
  simp only [selectRule, bind_apply, get_apply]
  generalize conditionPath inner key state.limit [] state = outcome at evaluated ⊢
  cases outcome.1.result with
  | error tag => exact evaluated
  | ok branches => exact evaluated.trans (leads_select key origin branches _)

omit plays in
theorem leads_applyModifiers (node : Node) (modifiers : List String) (state : Expansion) :
    Leads [] state (applyModifiers node modifiers state).2 := by
  induction modifiers generalizing node state with
  | nil => exact .done state
  | cons written rest ih =>
    simp only [applyModifiers, applyModifier, bind_apply, get_apply]
    cases state.grammar.modifier? (ModifierCall.parse written).name with
    | some modifier => exact ih _ _
    | none => exact (leads_record_noted state [_]).trans (ih _ _)

theorem leads_resolveSymbol (node : Node) (symbol : String) (state : Expansion) :
    Leads [] state (resolveSymbol inner node symbol state).2 := by
  have selected := leads_selectRule plays symbol (some node.place) state
  simp only [resolveSymbol, bind_apply]
  generalize selectRule inner symbol (some node.place) state = choice at selected ⊢
  cases choice.1.result with
  | error tag => exact selected
  | ok rule =>
    have expanded := selected.trans (leads_expandChildren plays
      { node.addErrors choice.1.problems with symbol := some symbol }
      (rule.getD (placeholder symbol)) choice.2)
    simp only [bind_apply]
    generalize expandChildren inner _ _ _ = outcome at expanded ⊢
    cases outcome.1.fatal with
    | some tag => exact expanded
    | none => exact expanded.trans (leads_applyModifiers _ _ _)

theorem leads_openScopes (actions : List Action) (state : Expansion) :
    Leads (openScopes inner actions state).1.targets state (openScopes inner actions state).2 := by
  induction actions generalizing state with
  | nil => exact .done state
  | cons action rest ih =>
    have first := leads_activate_head plays action state
    simp only [openScopes, bind_apply]
    generalize activate inner .tagHead action state = report at first ⊢
    simp only [pushedBy] at first
    cases result : report.1.result with
    | error tag => simpa only [result, pure_apply] using first
    | ok target =>
      simp only [result] at first
      exact first.append (ih _)

omit plays in
theorem closing_closeScopes (keys : List String) (state : Expansion) :
    ∃ events, Closing keys state events (closeScopes keys state).2 := by
  induction keys generalizing state with
  | nil => exact ⟨[], .done state⟩
  | cons key rest ih =>
    obtain ⟨set, middle, releases, notes⟩ := takeOff_steps (.inr rfl) state
    obtain ⟨events, closing⟩ := ih (release key state).2
    exact ⟨_, .released releases (closing.record_noted notes)⟩

/-- What expands within a node, up to the undoing of the pushes of its head. -/
theorem leads_expandBody (node : Node) (state : Expansion) :
    ∃ keys ready closing, Leads keys state ready ∧
      Closing keys ready closing (expandBody inner node state).2 := by
  have unscoped {target : Expansion} (leads : Leads [] state target) :
      ∃ keys ready closing, Leads keys state ready ∧ Closing keys ready closing target :=
    ⟨[], target, [], leads, .done target⟩
  rcases kind : node.kind with _ | segment
  · simp only [expandBody, kind]
    exact unscoped (leads_expandChildren plays node node.raw state)
  cases segment with
  | plain =>
    simp only [expandBody, kind]
    exact unscoped (.done state)
  | action =>
    have ran := leads_activate plays .bare (by decide) (Action.parse node.raw) state
    simp only [expandBody, kind, expandAction, bind_apply]
    generalize activate inner .bare (Action.parse node.raw) state = report at ran ⊢
    cases report.1.result <;> exact unscoped ran
  | tag =>
    simp only [expandBody, kind, expandTag]
    cases parsed : TagHead.parse node.raw with
    | error tag => exact unscoped (.done state)
    | ok head =>
      have opened := (leads_record_noted state head.problems).trans
        (leads_openScopes plays (head.preactions.map Action.parse) _)
      simp only [bind_apply, note_apply]
      generalize openScopes inner (head.preactions.map Action.parse) _ = scopes at opened ⊢
      cases scopes.1.fatal with
      | some tag =>
        obtain ⟨closing, closes⟩ := closing_closeScopes scopes.1.targets scopes.2
        exact ⟨_, _, closing, opened, closes⟩
      | none =>
        simp only [bind_apply]
        generalize resolves : resolveSymbol inner _ head.symbol scopes.2 = outcome
        have inside : Leads [] scopes.2 outcome.2 :=
          resolves ▸ leads_resolveSymbol plays _ head.symbol scopes.2
        obtain ⟨closing, closes⟩ := closing_closeScopes scopes.1.targets outcome.2
        exact ⟨_, _, closing, by simpa only [List.append_nil] using opened.append inside, closes⟩

omit plays in
/-- A node that asks for room is turned away, or its body runs between an entry and its end. -/
theorem withRoom_cases (body : Expander) {node : Node} (fresh : node.Fresh) (state : Expansion) :
    (∃ events, Path Step state events (withRoom body node state).2 ∧
        ∀ event ∈ events, event.Quiet) ∨
      ∃ raw depth middle, Step state (.entered raw depth) middle ∧
        (withRoom body node state).2 =
          (leave (body { node with expanded := true } middle).2).2 := by
  cases admission node state with
  | done expanded =>
    rw [withRoom_done body expanded]
    exact .inl ⟨[], .nil state, List.forall_mem_nil _⟩
  | plain new plain =>
    rw [withRoom_plain body new plain]
    exact .inl ⟨[], .nil state, List.forall_mem_nil _⟩
  | full new asks full =>
    have known : node.begun.Fresh := fresh
    have refuses := Step.refused known full
    have path := Path.cons refuses (.single (.noted _ (.recursionLimit state.limit node.raw)))
    have calm (node : Node) (depth : Nat) (problem : Problem) :
        ∀ event ∈ [Event.refused node depth, .noted problem], event.Quiet :=
      List.forall_mem_cons.mpr ⟨trivial, List.forall_mem_singleton.mpr trivial⟩
    rw [withRoom_full body new asks full]
    exact .inl ⟨_, path, calm _ _ _⟩
  | room new asks going room =>
    rw [withRoom_room body new asks going room]
    exact .inr ⟨node.raw, _, _, .entered node.raw going room, rfl⟩

theorem plays_withRoom : Plays (withRoom (expandBody inner)) := by
  intro node state fresh
  rcases withRoom_cases (expandBody inner) fresh state with
    ⟨events, path, calm⟩ | ⟨_, _, middle, enters, ends⟩
  · exact ⟨events, .still path calm⟩
  · rw [ends]
    obtain ⟨_, _, _, ⟨_, inside⟩, closes⟩ :=
      leads_expandBody plays { node with expanded := true } middle
    exact ⟨_, .opened enters inside closes (leave_step _)⟩

omit plays in
theorem plays_expander {below : Expander} (plays : Plays below) (levels : Nat) :
    Plays (expander below levels) := by
  induction levels with
  | zero => exact plays_withRoom plays
  | succ levels ih => exact plays_withRoom ih

omit plays in
theorem plays_idle : Plays idle :=
  fun _ state _ => ⟨[], .still (.nil state) (List.forall_mem_nil _)⟩

end Engine

open Engine

theorem plays_expandNode : Plays expandNode :=
  fun node state fresh => plays_expander plays_idle (state.limit - state.depth) node state fresh

theorem plays_previewNode : Plays previewNode := by
  intro node state fresh
  rcases withRoom_cases previewBody fresh state with
    ⟨events, path, calm⟩ | ⟨_, _, middle, enters, ends⟩
  · exact ⟨events, .still path calm⟩
  · rw [previewNode, ends]
    obtain ⟨_, inside⟩ := leads_record_noted middle (Scanned.ofRule node.raw).problems
    exact ⟨_, .opened enters inside (.done _) (leave_step _)⟩

/-- What a caller may ask of a context. -/
inductive Request
  | expand (rule : String) (options : ExpandOptions)
  | select (key : String) (origin : Option Place)
  | activate (action : Action)

/-- The state that a request leaves, whether it succeeds or is cut short. -/
def Request.after (request : Request) (state : Expansion) : Expansion :=
  match request with
  | .expand rule options => (Run.expandRule rule options state).2
  | .select key origin => (Engine.selectRule expandNode key origin state).2
  | .activate action => (Run.activate action state).2

/-- Every request is answered in episodes. -/
theorem leads_request (request : Request) (state : Expansion) :
    Leads [] state (request.after state) := by
  cases request with
  | expand rule options =>
    cases prevent : options.preventRecursion with
    | true =>
      simp only [Request.after, expandRule, expandOnce, prevent, ↓reduceIte]
      exact plays_previewNode.leads (Node.fresh_root rule) state
    | false =>
      simp only [Request.after, expandRule, expandOnce, prevent, Bool.false_eq_true, ↓reduceIte]
      exact plays_expandNode.leads (Node.fresh_root rule) state
  | select key origin => exact leads_selectRule plays_expandNode key origin state
  | activate action => exact leads_activate plays_expandNode .caller (by decide) action state

/-- A run from the start is one episode, told by its journal. -/
theorem episode_expandWith (grammar : Grammar) (rule : String) (options : ExpandOptions)
    (rolls : Rolls) :
    Episode [] (.start grammar rolls) (grammar.expandWith rule options rolls).2.events
      (grammar.expandWith rule options rolls).2 := by
  obtain ⟨events, episode⟩ := leads_request (.expand rule options) (.start grammar rolls)
  have told := episode.path.events_eq
  rw [show (start grammar rolls).events = [] from rfl, List.nil_append] at told
  exact told ▸ episode

end TextGrammar
