import TextGrammar.Proofs.Composition
import TextGrammar.Proofs.Views

/-! # Runs in parallel

Two states look the same through a view if their grammars do and they agree in all else, but for
what is in their journals. From states that look the same, a run gives the same answer and leaves
states that look the same: its single steps do, and so does whatever is put together from them. With
the levels below tied in by induction, expansions run in parallel whatever a faithful view hides.
-/

namespace TextGrammar

open Engine Expansion

/-- Two states that look the same through a view; nothing is said of their journals. -/
structure Expansion.Alike (view : Symbol → Symbol) (one other : Expansion) : Prop where
  grammar : one.grammar.through view = other.grammar.through view
  rolls : one.rolls = other.rolls
  limit : one.limit = other.limit
  depth : one.depth = other.depth
  tripped : one.tripped = other.tripped

/-- From states that look the same, two runs give values that match and leave states that look the
same. -/
def Parallel (view : Symbol → Symbol) {α β : Type} (matching : α → β → Prop) (run : Run α)
    (twin : Run β) : Prop :=
  ∀ ⦃one other : Expansion⦄, one.Alike view other →
    matching (run one).1 (twin other).1 ∧ (run one).2.Alike view (twin other).2

namespace Expansion

variable {view : Symbol → Symbol} {one other : Expansion}

theorem Alike.record (alike : one.Alike view other) (events twinEvents : List Event) :
    (one.record events).Alike view (other.record twinEvents) :=
  ⟨alike.grammar, alike.rolls, alike.limit, alike.depth, alike.tripped⟩

theorem Alike.withGrammar (alike : one.Alike view other) {grammar twin : Grammar}
    (same : grammar.through view = twin.through view) :
    { one with grammar }.Alike view { other with grammar := twin } :=
  ⟨same, alike.rolls, alike.limit, alike.depth, alike.tripped⟩

theorem Alike.leave (alike : one.Alike view other) :
    (Run.leave one).2.Alike view (Run.leave other).2 :=
  ⟨alike.grammar, alike.rolls, alike.limit, congrArg (· - 1) alike.depth, alike.tripped⟩

theorem clear_setAt? (state : Expansion) (key : String) (path : List String) :
    (state.setAt? key path).map RuleSet.clear =
      ((state.grammar.ruleSet? key).map RuleSet.clear).bind (·.descend? path) := by
  rw [setAt?]
  cases state.grammar.ruleSet? key with
  | none => rfl
  | some set => exact (set.descend?_clear path).symm

/-- The condition to evaluate next is a matter of the set stood at, counters aside. -/
theorem condition?_eq_clear (state : Expansion) (key : String) (path : List String) :
    state.condition? key path =
      ((state.setAt? key path).map RuleSet.clear).bind (·.condition?) := by
  rw [condition?]
  cases state.setAt? key path with
  | none => rfl
  | some set => exact set.condition?_clear.symm

/-- So is where the text of a condition leads. -/
theorem leads_eq_clear (state : Expansion) (key : String) (path : List String) (value : String) :
    state.leads key path value =
      (((state.setAt? key path).map RuleSet.clear).bind (·.branch? value)).isSome := by
  rw [leads]
  cases state.setAt? key path with
  | none => rfl
  | some set =>
    simp only [Option.map_some, Option.bind_some, set.branch?_clear, Option.isSome_map]

variable (faithful : Symbol.Faithful view)
include faithful

theorem Alike.setAt? (alike : one.Alike view other) (key : String) (path : List String) :
    (one.setAt? key path).map RuleSet.clear = (other.setAt? key path).map RuleSet.clear := by
  rw [clear_setAt?, clear_setAt?, Grammar.ruleSet?_of_through faithful alike.grammar key]

theorem Alike.condition? (alike : one.Alike view other) (key : String) (path : List String) :
    one.condition? key path = other.condition? key path := by
  rw [condition?_eq_clear, condition?_eq_clear, alike.setAt? faithful key path]

theorem Alike.leads (alike : one.Alike view other) (key : String) (path : List String)
    (value : String) : one.leads key path value = other.leads key path value := by
  rw [leads_eq_clear, leads_eq_clear, alike.setAt? faithful key path]

end Expansion

namespace Parallel

variable {view : Symbol → Symbol} {α β γ δ : Type} {matching : α → β → Prop}
  {results : γ → δ → Prop}

theorem pure {value : α} {twin : β} (fits : matching value twin) :
    Parallel view matching (Pure.pure value) (Pure.pure twin) :=
  fun _ _ alike => ⟨fits, alike⟩

theorem mono {weaker : α → β → Prop} {run : Run α} {twin : Run β}
    (weakens : ∀ value other, matching value other → weaker value other)
    (parallel : Parallel view matching run twin) : Parallel view weaker run twin := by
  intro one other alike
  obtain ⟨fits, alike⟩ := parallel alike
  exact ⟨weakens _ _ fits, alike⟩

theorem bind {run : Run α} {twin : Run β} {next : α → Run γ} {more : β → Run δ}
    (begins : Parallel view matching run twin)
    (goesOn : ∀ value other, matching value other →
      Parallel view results (next value) (more other)) :
    Parallel view results (run >>= next) (twin >>= more) := by
  intro one other alike
  obtain ⟨fits, alike⟩ := begins alike
  exact goesOn _ _ fits alike

/-- What comes after equal values is only looked at for one value. -/
theorem andThen {run twin : Run α} {next : α → Run γ} {more : α → Run δ}
    (begins : Parallel view Eq run twin)
    (goesOn : ∀ value, Parallel view results (next value) (more value)) :
    Parallel view results (run >>= next) (twin >>= more) :=
  begins.bind fun value _ same => same ▸ goesOn value

theorem note (problems : List Problem) :
    Parallel view Eq (Run.note problems) (Run.note problems) :=
  fun _ _ alike => ⟨rfl, alike.record _ _⟩

theorem begin (site twinSite : Site) (action : Action) :
    Parallel view Eq (Run.begin site action) (Run.begin twinSite action) :=
  fun _ _ alike => ⟨rfl, alike.record _ _⟩

theorem applyModifier (node : Node) (written : String) :
    Parallel view Eq (Engine.applyModifier node written) (Engine.applyModifier node written) := by
  intro one other alike
  have same := Grammar.modifier?_of_through alike.grammar (ModifierCall.parse written).name
  simp only [Engine.applyModifier, Run.bind_apply, Run.get_apply, same]
  cases other.grammar.modifier? (ModifierCall.parse written).name with
  | some modifier => exact ⟨rfl, alike⟩
  | none => exact ⟨rfl, alike.record _ _⟩

/-- A node is treated in the same way in both states; what is then said of its body is said of the
two answers. -/
theorem withRoom {matching : Outcome → Outcome → Prop} {body twinBody : Expander} {node twin : Node}
    (expanded : node.expanded = twin.expanded) (kind : node.kind = twin.kind)
    (done : matching ⟨node, none⟩ ⟨twin, none⟩)
    (copied : matching ⟨{ node.begun with text := node.raw }, none⟩
      ⟨{ twin.begun with text := twin.raw }, none⟩)
    (refused : ∀ limit, matching ⟨node.begun.refused limit, none⟩ ⟨twin.begun.refused limit, none⟩)
    (inside : Parallel view matching (body node.begun) (twinBody twin.begun)) :
    Parallel view matching (withRoom body node) (withRoom twinBody twin) := by
  intro one other alike
  cases admission node one with
  | done isExpanded =>
    rw [withRoom_done body isExpanded, withRoom_done twinBody (expanded ▸ isExpanded)]
    exact ⟨done, alike⟩
  | plain new plain =>
    rw [withRoom_plain body new plain, withRoom_plain twinBody (expanded ▸ new) (kind ▸ plain)]
    exact ⟨copied, alike⟩
  | full new asks full =>
    have fullToo : other.tripped = true ∨ other.limit ≤ other.depth := by
      rwa [← alike.tripped, ← alike.limit, ← alike.depth]
    rw [withRoom_full body new asks full,
      withRoom_full twinBody (expanded ▸ new) (kind ▸ asks) fullToo, alike.limit]
    exact ⟨refused other.limit,
      ⟨alike.grammar, alike.rolls, alike.limit, alike.depth, rfl⟩⟩
  | room new asks going room =>
    have roomToo : other.depth < other.limit := by
      rwa [← alike.limit, ← alike.depth]
    rw [withRoom_room body new asks going room,
      withRoom_room twinBody (expanded ▸ new) (kind ▸ asks) (alike.tripped ▸ going) roomToo]
    have entered : (one.inside node.raw).Alike view (other.inside twin.raw) :=
      ⟨alike.grammar, alike.rolls, alike.limit, congrArg (· + 1) alike.depth, alike.tripped⟩
    obtain ⟨fits, alike⟩ := inside entered
    exact ⟨fits, alike.leave⟩

section

variable (faithful : Symbol.Faithful view)
include faithful

theorem push (site twinSite : Site) (key : String) (alternatives : List String) :
    Parallel view Eq (Run.push site key alternatives) (Run.push twinSite key alternatives) :=
  fun _ _ alike => ⟨rfl, (alike.withGrammar
    (Grammar.through_push faithful alike.grammar key alternatives)).record _ _⟩

theorem takeOff (event twinEvent : Option RuleSet → Event) (key : String) :
    Parallel view Eq (Run.takeOff event key) (Run.takeOff twinEvent key) := by
  intro one other alike
  simp only [Run.takeOff]
  rcases Grammar.through_pop faithful alike.grammar key with
    ⟨problem, fails, failsToo⟩ | ⟨taken, twinTaken, takes, takesToo, same⟩
  · simp only [fails, failsToo]
    exact ⟨trivial, alike.record _ _⟩
  · simp only [takes, takesToo]
    exact ⟨trivial, (alike.withGrammar same).record _ _⟩

theorem select {origin twinOrigin : Option Place}
    (logged : ∀ {symbol twin : Symbol}, view symbol = view twin →
      view { symbol with log := origin :: symbol.log } =
        view { twin with log := twinOrigin :: twin.log }) (key : String) (path : List String) :
    Parallel view Eq (Run.select key origin path) (Run.select key twinOrigin path) := by
  intro one other alike
  obtain ⟨answers, left⟩ :=
    Grammar.through_select faithful logged alike.grammar key path one.rolls
  simp only [Grammar.Selection.answer, Prod.mk.injEq] at answers
  obtain ⟨rule, problems, rolls⟩ := answers
  rw [alike.rolls] at rule problems rolls left
  simp only [Run.select, alike.rolls, rule, problems]
  exact ⟨trivial, ⟨left, rolls, alike.limit, alike.depth, alike.tripped⟩⟩

end

end Parallel

namespace Engine

/-- An expander answers the same to a node in states that look the same. -/
def Steady (view : Symbol → Symbol) (inner : Expander) : Prop :=
  ∀ node, node.Fresh → Parallel view Eq (inner node) (inner node)

section

variable {view : Symbol → Symbol} (faithful : Symbol.Faithful view) {inner : Expander}
  (steady : Steady view inner)
include faithful steady

omit faithful in
theorem parallel_expandNested (rule : String) :
    Parallel view Eq (expandNested inner rule) (expandNested inner rule) :=
  (steady _ (Node.fresh_root rule)).andThen fun _ => .pure rfl

theorem parallel_conditionPath (key : String) (steps : Nat) (path : List String) :
    Parallel view Eq (conditionPath inner key steps path) (conditionPath inner key steps path) := by
  induction steps generalizing path with
  | zero => exact .pure rfl
  | succ steps ih =>
    intro one other alike
    have same := alike.condition? faithful key path
    cases found : one.condition? key path with
    | none =>
      rw [conditionPath_of_none inner steps found,
        conditionPath_of_none inner steps (same ▸ found)]
      exact ⟨rfl, alike⟩
    | some condition =>
      rw [conditionPath_of_some inner steps found, conditionPath_of_some inner steps (same ▸ found)]
      refine (parallel_expandNested steady condition).andThen (fun result => ?_) alike
      cases result with
      | error tag => exact .pure rfl
      | ok node =>
        intro one other alike
        have leadsToo := alike.leads faithful key path node.text
        by_cases leads : one.leads key path node.text = true
        · rw [follow_of_leads inner steps leads, follow_of_leads inner steps (leadsToo ▸ leads)]
          exact (ih (path ++ [node.text])).andThen (fun _ => .pure rfl) alike
        · rw [follow_of_astray inner steps leads, follow_of_astray inner steps (leadsToo ▸ leads)]
          exact ⟨rfl, alike⟩

/-- Only the logs may tell for which places two rules were selected. -/
theorem parallel_selectRule {origin twinOrigin : Option Place}
    (logged : ∀ {symbol twin : Symbol}, view symbol = view twin →
      view { symbol with log := origin :: symbol.log } =
        view { twin with log := twinOrigin :: twin.log }) (key : String) :
    Parallel view Eq (selectRule inner key origin) (selectRule inner key twinOrigin) := by
  intro one other alike
  rw [selectRule_apply, selectRule_apply, alike.limit]
  refine (parallel_conditionPath faithful steady key other.limit []).andThen (fun path => ?_) alike
  simp only [choose]
  cases path.result with
  | error tag => exact .pure rfl
  | ok branches => exact (Parallel.select faithful logged key branches).andThen fun _ => .pure rfl

/-- What is put together from steps that run in parallel runs in parallel with itself. -/
theorem inherited_parallel :
    Inherited fun run => Parallel view Eq (run inner) (run inner) where
  asked := steady
  pure _ := .pure rfl
  bind begins goesOn := begins.andThen goesOn
  note := .note
  begin site := .begin site site
  push site := .push faithful site site
  takeOff _ := .takeOff faithful _ _ _
  applyModifier := .applyModifier
  selectRule key origin :=
    parallel_selectRule faithful steady (fun same => faithful.log same origin) key

theorem steady_withRoom : Steady view (withRoom (expandBody inner)) :=
  fun node _ => .withRoom rfl rfl rfl rfl (fun _ => rfl)
    ((inherited_parallel faithful steady).expandBody node.begun)

omit steady in
theorem steady_expander {below : Expander} (steady : Steady view below) (levels : Nat) :
    Steady view (expander below levels) := by
  induction levels with
  | zero => exact steady_withRoom faithful steady
  | succ levels ih => exact steady_withRoom faithful ih

omit faithful steady in
theorem steady_idle : Steady view idle :=
  fun _ _ => .pure rfl

end

end Engine

open Engine

section

variable {view : Symbol → Symbol} (faithful : Symbol.Faithful view)
include faithful

theorem steady_expandNode : Steady view expandNode := by
  intro node fresh one other alike
  have levels : other.limit - other.depth = one.limit - one.depth := by
    rw [alike.limit, alike.depth]
  have expands := steady_expander faithful steady_idle (one.limit - one.depth) node fresh alike
  simp only [expandNode, Run.bind_apply, Run.get_apply, levels]
  exact expands

omit faithful in
theorem parallel_previewNode (node : Node) :
    Parallel view Eq (previewNode node) (previewNode node) :=
  .withRoom rfl rfl rfl rfl (fun _ => rfl) ((Parallel.note _).andThen fun _ => .pure rfl)

end

end TextGrammar
