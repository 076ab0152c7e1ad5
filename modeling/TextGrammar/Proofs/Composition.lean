import TextGrammar.Proofs.Runs

/-! # What the engine is put together from

The functions of the engine ask an expander for the level below, take single steps, select rules,
and do one of these after the other. A property of runs that holds of these parts, and of one run
after another that has it, is inherited by everything the engine runs.
-/

namespace TextGrammar

open Engine

/-- A property of what is run against an expander that the engine inherits from its parts. -/
structure Inherited (holds : ∀ {α : Type}, (Expander → Run α) → Prop) : Prop where
  asked (node : Node) (fresh : node.Fresh) : holds fun inner => inner node
  pure {α : Type} (value : α) : holds fun _ => pure value
  bind {α β : Type} {first : Expander → Run α} {next : Expander → α → Run β} (begins : holds first)
    (goesOn : ∀ value, holds fun inner => next inner value) :
    holds fun inner => first inner >>= next inner
  note (problems : List Problem) : holds fun _ => Run.note problems
  begin (site : Site) (action : Action) : holds fun _ => Run.begin site action
  push (site : Site) (key : String) (alternatives : List String) :
    holds fun _ => Run.push site key alternatives
  takeOff {event : Option RuleSet → Event} {key : String}
    (kind : event = .popped key ∨ event = .released key) : holds fun _ => Run.takeOff event key
  applyModifier (node : Node) (written : String) : holds fun _ => applyModifier node written
  selectRule (key : String) (origin : Option Place) : holds fun inner => selectRule inner key origin

namespace Inherited

variable {holds : ∀ {α : Type}, (Expander → Run α) → Prop} (inherited : Inherited holds)
include inherited

theorem expandEach {nodes : List Node} (fresh : ∀ node ∈ nodes, node.Fresh) :
    holds fun inner => expandEach inner nodes := by
  induction nodes with
  | nil => exact inherited.pure _
  | cons child rest ih =>
    obtain ⟨childFresh, restFresh⟩ := List.forall_mem_cons.mp fresh
    refine inherited.bind (inherited.asked child childFresh) fun outcome => ?_
    cases outcome.fatal with
    | some tag => exact inherited.pure _
    | none => exact inherited.bind (ih restFresh) fun _ => inherited.pure _

theorem expandChildren (node : Node) (rule : String) :
    holds fun inner => expandChildren inner node rule := by
  have children := inherited.expandEach (fresh_adopt node rule (Scanned.ofRule rule))
  refine inherited.bind (inherited.note _) fun _ => inherited.bind children fun siblings => ?_
  cases siblings.fatal <;> exact inherited.pure _

theorem expandNested (rule : String) : holds fun inner => expandNested inner rule :=
  inherited.bind (inherited.asked _ (Node.fresh_root rule)) fun _ => inherited.pure _

theorem expandParts (parts : List String) : holds fun inner => expandParts inner parts := by
  induction parts with
  | nil => exact inherited.pure _
  | cons part rest ih =>
    refine inherited.bind (inherited.expandNested part) fun result => ?_
    cases result with
    | error tag => exact inherited.pure _
    | ok node => exact inherited.bind ih fun _ => inherited.pure _

theorem activate (site : Site) (action : Action) :
    holds fun inner => activate inner site action := by
  refine inherited.bind (inherited.begin site action) fun _ => ?_
  cases action with
  | push target rule =>
    refine inherited.bind (inherited.expandParts _) fun parts => ?_
    cases parts.result with
    | error tag => exact inherited.pure _
    | ok alternatives =>
      exact inherited.bind (inherited.push site target alternatives) fun _ => inherited.pure _
  | pop target => exact inherited.bind (inherited.takeOff (.inl rfl)) fun _ => inherited.pure _
  | call rule =>
    refine inherited.bind (inherited.expandNested rule) fun result => ?_
    cases result <;> exact inherited.pure _

theorem applyModifiers (node : Node) (modifiers : List String) :
    holds fun _ => applyModifiers node modifiers := by
  induction modifiers generalizing node with
  | nil => exact inherited.pure _
  | cons written rest ih =>
    exact inherited.bind (inherited.applyModifier node written) fun node => ih node

theorem resolveSymbol (node : Node) (symbol : String) :
    holds fun inner => resolveSymbol inner node symbol := by
  refine inherited.bind (inherited.selectRule symbol _) fun selected => ?_
  cases selected.result with
  | error tag => exact inherited.pure _
  | ok rule =>
    refine inherited.bind (inherited.expandChildren _ _) fun outcome => ?_
    cases outcome.fatal with
    | some tag => exact inherited.pure _
    | none => exact inherited.bind (inherited.applyModifiers _ _) fun _ => inherited.pure _

theorem openScopes (actions : List Action) : holds fun inner => openScopes inner actions := by
  induction actions with
  | nil => exact inherited.pure _
  | cons action rest ih =>
    refine inherited.bind (inherited.activate .tagHead action) fun report => ?_
    cases report.result with
    | error tag => exact inherited.pure _
    | ok target => exact inherited.bind ih fun _ => inherited.pure _

theorem closeScopes (targets : List String) : holds fun _ => closeScopes targets := by
  induction targets with
  | nil => exact inherited.pure _
  | cons target rest ih =>
    exact inherited.bind (inherited.takeOff (.inr rfl)) fun _ =>
      inherited.bind ih fun _ => inherited.pure _

theorem expandTag (node : Node) : holds fun inner => expandTag inner node := by
  simp only [Engine.expandTag]
  cases TagHead.parse node.raw with
  | error tag => exact inherited.pure _
  | ok head =>
    refine inherited.bind (inherited.note _) fun _ =>
      inherited.bind (inherited.openScopes _) fun scopes => ?_
    cases scopes.fatal with
    | some tag =>
      exact inherited.bind (inherited.pure _) fun _ =>
        inherited.bind (inherited.closeScopes _) fun _ => inherited.pure _
    | none =>
      exact inherited.bind (inherited.resolveSymbol _ _) fun _ =>
        inherited.bind (inherited.closeScopes _) fun _ => inherited.pure _

theorem expandAction (node : Node) : holds fun inner => expandAction inner node := by
  refine inherited.bind (inherited.activate .bare _) fun report => ?_
  cases report.result <;> exact inherited.pure _

theorem expandBody (node : Node) : holds fun inner => expandBody inner node := by
  simp only [Engine.expandBody]
  split
  · exact inherited.expandChildren node node.raw
  · exact inherited.expandTag node
  · exact inherited.expandAction node
  · exact inherited.pure _

end Inherited

open Expansion

/-- A run goes from state to state in steps. -/
def Run.Walks {α : Type} (run : Run α) : Prop :=
  ∀ state, ∃ events, Path Step state events (run state).2

namespace Run.Walks

variable {α β : Type} {run : Run α} {next : α → Run β}

theorem pure (value : α) : Walks (Pure.pure value) :=
  fun state => ⟨[], .nil state⟩

theorem bind (begins : Walks run) (goesOn : ∀ value, Walks (next value)) :
    Walks (run >>= next) := by
  intro state
  obtain ⟨first, path⟩ := begins state
  obtain ⟨second, rest⟩ := goesOn (run state).1 (run state).2
  exact ⟨first ++ second, path.append rest⟩

theorem of_leads (leads : ∀ state, Leads [] state (run state).2) : Walks run :=
  fun state => (leads state).imp fun _ episode => episode.path

end Run.Walks

/-- What the engine runs goes in steps. -/
theorem Engine.inherited_walks {inner : Expander} (plays : Plays inner) :
    Inherited fun run => Run.Walks (run inner) where
  asked _ fresh := .of_leads (plays.leads fresh)
  pure := .pure
  bind := .bind
  note problems := .of_leads fun state => leads_record_noted state problems
  begin site action := fun state => ⟨_, .single (Run.begin_step site action state)⟩
  push site key alternatives := fun state =>
    (Run.push_step site key alternatives state).imp' (fun set => [.pushed site key set])
      fun _ step => .single step
  takeOff kind := fun state => by
    obtain ⟨_, middle, takes, notes⟩ := Run.takeOff_steps kind state
    obtain ⟨_, noted⟩ := leads_record_noted middle (Run.takeOff _ _ state).1
    exact ⟨_, .cons takes (notes ▸ noted.path)⟩
  applyModifier node written := .of_leads (leads_applyModifiers node [written])
  selectRule key origin := .of_leads (leads_selectRule plays key origin)

end TextGrammar
