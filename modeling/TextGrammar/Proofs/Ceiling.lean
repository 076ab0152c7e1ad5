import TextGrammar.Proofs.Levels
import TextGrammar.Proofs.Nesting

/-! # Raising the ceiling

A run that does not hit the ceiling goes in the same way under a higher one. The ceiling is read in
two places: where a node asks for room, and where a selection counts the conditions it evaluates.
The first shows in a refusal only; the second shows nothing while sets nest no deeper than the lower
ceiling.
-/

namespace TextGrammar

open Engine Expansion

namespace Grammar

/-- The grammar with another ceiling in its settings. -/
def withCeiling (grammar : Grammar) (limit : Nat) : Grammar :=
  { grammar with settings := { grammar.settings with maxDepth := limit } }

variable (grammar : Grammar) (limit : Nat)

theorem symbol?_withCeiling (key : String) :
    (grammar.withCeiling limit).symbol? key = grammar.symbol? key := rfl

theorem nestsWithin_withCeiling {levels : Nat} (within : grammar.NestsWithin levels) :
    (grammar.withCeiling limit).NestsWithin levels := by
  obtain ⟨own, subs⟩ := List.forall_mem_cons.mp within
  exact List.forall_mem_cons.mpr ⟨own, subs⟩

theorem pop_withCeiling (key : String) :
    (grammar.withCeiling limit).pop key =
      (grammar.pop key).map fun (set, next) => (set, next.withCeiling limit) := by
  simp only [pop, symbol?_withCeiling]
  cases grammar.symbol? key with
  | none => rfl
  | some symbol =>
    cases popped : symbol.pop <;> simp only [popped] <;> rfl

theorem select_withCeiling (key : String) (origin : Option Place) (path : List String)
    (rolls : Rolls) :
    (grammar.withCeiling limit).select key origin path rolls =
      let selection := grammar.select key origin path rolls
      { selection with grammar := selection.grammar.withCeiling limit } := by
  simp only [select, symbol?_withCeiling]
  cases grammar.symbol? key with
  | some symbol => rfl
  | none =>
    have same : (grammar.withCeiling limit).subgrammars = grammar.subgrammars := rfl
    simp only [same]
    cases selectAmong? key path rolls grammar.subgrammars <;> rfl

end Grammar

namespace Expansion

/-- The state under another ceiling, which its grammar has in its settings. -/
def withCeiling (state : Expansion) (limit : Nat) : Expansion :=
  { state with limit, grammar := state.grammar.withCeiling limit }

variable {source target : Expansion} {event : Event} {events : List Event}

/-- Where the ceiling was not hit at the end, it was not hit before. -/
theorem Path.going (path : Path Step source events target) :
    target.tripped = false → source.tripped = false :=
  path.relate (fun s t => t.tripped = false → s.tripped = false) (fun _ => id)
    (fun first second => first ∘ second) fun step going => by
      cases step with
      | refused => contradiction
      | _ => exact going

/-- A state at some depth under a ceiling, with sets that nest no deeper than the ceiling. -/
structure Fits (low depth : Nat) (state : Expansion) : Prop where
  limit : state.limit = low
  depth : state.depth = depth
  shallow : state.grammar.NestsWithin low

end Expansion

/-- What is run from a state comes back to its depth, and unless it hits the ceiling, a second run
does the same from there under a higher one. -/
structure Lifts {α : Type} (high : Nat) (run raised : Run α) (state : Expansion) : Prop where
  path : ∃ events, Path Step state events (run state).2
  depth : (run state).2.depth = state.depth
  same : (run state).2.tripped = false →
    raised (state.withCeiling high) = ((run state).1, (run state).2.withCeiling high)

namespace Lifts

variable {α β : Type} {low high depth : Nat} {run raised first second : Run α}
  {next more : α → Run β} {state : Expansion}

theorem fits (lifts : Lifts high run raised state) (fits : Fits low depth state) :
    Fits low depth (run state).2 := by
  obtain ⟨events, path⟩ := lifts.path
  exact {
    limit := path.limit_eq.trans fits.limit
    depth := lifts.depth.trans fits.depth
    shallow := path.nestsWithin fits.shallow }

theorem pure (value : α) (state : Expansion) :
    Lifts high (Pure.pure value) (Pure.pure value) state :=
  ⟨⟨[], .nil state⟩, rfl, fun _ => rfl⟩

theorem bind (begins : Lifts high first second state)
    (goesOn : Lifts high (next (first state).1) (more (first state).1) (first state).2) :
    Lifts high (first >>= next) (second >>= more) state := by
  obtain ⟨early, firstPath⟩ := begins.path
  obtain ⟨late, nextPath⟩ := goesOn.path
  refine ⟨⟨_, firstPath.append nextPath⟩, goesOn.depth.trans begins.depth, fun going => ?_⟩
  rw [Run.bind_apply, begins.same (nextPath.going going)]
  exact goesOn.same going

/-- Only what is run from the state at hand matters. -/
theorem congr (same : run state = first state)
    (sameRaised : raised (state.withCeiling high) = second (state.withCeiling high))
    (lifts : Lifts high first second state) : Lifts high run raised state where
  path := same ▸ lifts.path
  depth := same ▸ lifts.depth
  same := by
    rw [same, sameRaised]
    exact lifts.same

end Lifts

theorem Lifts.note {high : Nat} (problems : List Problem) (state : Expansion) :
    Lifts high (Run.note problems) (Run.note problems) state := by
  obtain ⟨events, episode⟩ := leads_record_noted state problems
  exact ⟨⟨events, episode.path⟩, rfl, fun _ => rfl⟩

theorem Lifts.select {high : Nat} (key : String) (origin : Option Place) (path : List String)
    (state : Expansion) :
    Lifts high (Run.select key origin path) (Run.select key origin path) state := by
  obtain ⟨events, episode⟩ := Run.leads_select key origin path state
  refine ⟨⟨events, episode.path⟩, rfl, fun _ => ?_⟩
  have same : (state.withCeiling high).grammar.select key origin path state.rolls = _ :=
    state.grammar.select_withCeiling high key origin path state.rolls
  simp only [Run.select]
  rw [show (state.withCeiling high).rolls = state.rolls from rfl, same]
  rfl

/-- From every state that fits, a run lifts to the higher ceiling. -/
def Liftable (low high depth : Nat) {α : Type} (run : Expander → Run α) : Prop :=
  ∀ state, Fits low depth state → Lifts high (run expandNode) (run expandNode) state

section

variable {low high depth : Nat}
  (asked : ∀ node, node.Fresh → Liftable low high depth fun inner => inner node)
include asked

theorem liftable_expandNested (rule : String) :
    Liftable low high depth fun inner => expandNested inner rule :=
  fun state fits => (asked _ (Node.fresh_root rule) state fits).bind (.pure _ _)

/-- The loop over conditions ends where the sets do, however many conditions it may still
evaluate. -/
theorem lifts_conditionPath (key : String) (steps extra : Nat) (path : List String)
    (covers : low ≤ path.length + steps) (state : Expansion) (fits : Fits low depth state) :
    Lifts high (conditionPath expandNode key steps path)
      (conditionPath expandNode key (steps + extra) path) state := by
  induction steps generalizing path state with
  | zero =>
    -- The lower count has run out, but no condition is left for the higher one either.
    have ends : state.condition? key path = none :=
      condition?_of_nestsWithin fits.shallow key covers
    have stopped : conditionPath expandNode key (0 + extra) path (state.withCeiling high) =
        (⟨.ok path, []⟩, state.withCeiling high) := by
      cases extra with
      | zero => rfl
      | succ extra => exact conditionPath_of_none expandNode (0 + extra) ends
    exact ⟨⟨[], .nil state⟩, rfl, fun _ => stopped⟩
  | succ steps ih =>
    have counted : steps + 1 + extra = steps + extra + 1 := Nat.add_right_comm steps 1 extra
    rw [counted]
    cases found : state.condition? key path with
    | none =>
      have ends := conditionPath_of_none expandNode steps found
      have raised : conditionPath expandNode key (steps + extra + 1) path (state.withCeiling high) =
          (⟨.ok path, []⟩, state.withCeiling high) :=
        conditionPath_of_none expandNode (steps + extra) found
      exact .congr ends raised (.pure _ state)
    | some condition =>
      have evaluated := liftable_expandNested asked condition state fits
      refine .congr (conditionPath_of_some expandNode steps found)
        (conditionPath_of_some expandNode (steps + extra) found) (evaluated.bind ?_)
      have fits := evaluated.fits fits
      generalize (expandNested expandNode condition state).2 = later at fits ⊢
      cases (expandNested expandNode condition state).1 with
      | error tag => exact .pure _ later
      | ok node =>
        by_cases leads : later.leads key path node.text = true
        · have onward := ih (path ++ [node.text]) (by
            rw [List.length_append, List.length_singleton]
            omega) later fits
          exact .congr (follow_of_leads expandNode steps leads)
            (follow_of_leads expandNode (steps + extra) leads) (onward.bind (.pure _ _))
        · exact .congr (follow_of_astray expandNode steps leads)
            (follow_of_astray expandNode (steps + extra) leads) (.pure _ later)

theorem liftable_selectRule (higher : low ≤ high) (key : String) (origin : Option Place) :
    Liftable low high depth fun inner => selectRule inner key origin := by
  intro state fits
  obtain ⟨extra, rfl⟩ := Nat.exists_eq_add_of_le higher
  have covers : low ≤ ([] : List String).length + low := Nat.le_add_left _ _
  have path := lifts_conditionPath asked key low extra [] covers state fits
  refine .congr ((selectRule_apply expandNode key origin state).trans (by rw [fits.limit]))
    (selectRule_apply expandNode key origin _) (path.bind ?_)
  generalize (conditionPath expandNode key low [] state).1 = report
  simp only [choose]
  cases report.result with
  | error tag => exact .pure _ _
  | ok branches => exact (Lifts.select key origin branches _).bind (.pure _ _)

theorem inherited_liftable (higher : low ≤ high) : Inherited (Liftable low high depth) where
  asked := asked
  pure value state _ := .pure value state
  bind begins goesOn state fits :=
    (begins state fits).bind (goesOn _ _ ((begins state fits).fits fits))
  note problems state _ := .note problems state
  begin site action state _ := ⟨⟨_, .single (Run.begin_step site action state)⟩, rfl, fun _ => rfl⟩
  push site key alternatives state _ := by
    obtain ⟨set, step⟩ := Run.push_step site key alternatives state
    exact ⟨⟨_, .single step⟩, rfl, fun _ => rfl⟩
  takeOff {event key} kind state _ := by
    obtain ⟨set, middle, takes, notes⟩ := Run.takeOff_steps kind state
    obtain ⟨events, episode⟩ := leads_record_noted middle (Run.takeOff event key state).1
    refine ⟨⟨_, .cons takes (notes ▸ episode.path)⟩, ?_, fun _ => ?_⟩
    · simp only [Run.takeOff]
      cases state.grammar.pop key <;> rfl
    · have same := state.grammar.pop_withCeiling high key
      simp only [Run.takeOff]
      rw [show (state.withCeiling high).grammar.pop key = _ from same]
      cases state.grammar.pop key <;> rfl
  applyModifier node written state _ := by
    obtain ⟨events, episode⟩ := leads_applyModifiers node [written] state
    refine ⟨⟨events, episode.path⟩, episode.depth, fun _ => ?_⟩
    have same : (state.withCeiling high).grammar.modifier? (ModifierCall.parse written).name =
        state.grammar.modifier? (ModifierCall.parse written).name := rfl
    simp only [applyModifier, Run.bind_apply, Run.get_apply, same]
    cases state.grammar.modifier? (ModifierCall.parse written).name <;> rfl
  selectRule := liftable_selectRule asked higher

end

/-- What has room below the lower ceiling has room below the higher one. -/
theorem withRoom_withCeiling {low high depth : Nat} (higher : low ≤ high) {body : Expander}
    {node : Node} {state : Expansion} (fits : Fits low depth state)
    (lifts : depth < low → Fits low (depth + 1) (state.inside node.raw) →
      Lifts high (body node.begun) (body node.begun) (state.inside node.raw))
    (going : (withRoom body node state).2.tripped = false) :
    withRoom body node (state.withCeiling high) =
      ((withRoom body node state).1, (withRoom body node state).2.withCeiling high) := by
  cases admission node state with
  | done expanded => rw [withRoom_done _ expanded, withRoom_done _ expanded]
  | plain new plain => rw [withRoom_plain _ new plain, withRoom_plain _ new plain]
  | full new asks full =>
    rw [withRoom_full _ new asks full] at going
    contradiction
  | room new asks untripped room =>
    have below : depth < low := fits.depth ▸ fits.limit ▸ room
    have ran := lifts below ⟨fits.limit, congrArg (· + 1) fits.depth, fits.shallow⟩
    have untrippedAbove : (state.withCeiling high).tripped = false := untripped
    have roomAbove : (state.withCeiling high).depth < (state.withCeiling high).limit :=
      Nat.lt_of_lt_of_le (fits.limit ▸ room) higher
    have inside : (state.withCeiling high).inside node.raw =
        (state.inside node.raw).withCeiling high := rfl
    rw [withRoom_room _ new asks untripped room] at going ⊢
    rw [withRoom_room _ new asks untrippedAbove roomAbove, Run.bind_apply, inside, ran.same going]
    rfl

/-- Nodes lift at a depth when they do one deeper, if there is room below the lower ceiling. -/
theorem liftable_of_deeper {low high depth : Nat} (higher : low ≤ high)
    (deeper : depth < low →
      ∀ node, node.Fresh → Liftable low high (depth + 1) fun inner => inner node)
    (node : Node) (fresh : node.Fresh) : Liftable low high depth fun inner => inner node := by
  intro state fits
  obtain ⟨events, visit⟩ := plays_expandNode node state fresh
  refine ⟨⟨events, visit.episode.path⟩, visit.episode.depth, fun going => ?_⟩
  simp only at going ⊢
  rw [expandNode_eq] at going ⊢
  exact withRoom_withCeiling higher fits (fun below inside =>
    (inherited_liftable (deeper below) higher).expandBody node.begun _ inside) going

theorem liftable_expandNode {low high depth : Nat} (higher : low ≤ high) (node : Node)
    (fresh : node.Fresh) : Liftable low high depth fun inner => inner node := by
  induction levels : low - depth generalizing depth node with
  | zero => exact liftable_of_deeper higher (fun room => by omega) node fresh
  | succ below ih =>
    exact liftable_of_deeper higher (fun _ other new => ih other new (by omega)) node fresh

theorem lifts_previewNode {low high depth : Nat} (higher : low ≤ high) (node : Node)
    (fresh : node.Fresh) {state : Expansion} (fits : Fits low depth state) :
    Lifts high (previewNode node) (previewNode node) state := by
  obtain ⟨events, visit⟩ := plays_previewNode node state fresh
  refine ⟨⟨events, visit.episode.path⟩, visit.episode.depth, fun going => ?_⟩
  exact withRoom_withCeiling higher fits
    (fun _ _ => (Lifts.note _ _).bind (.pure _ _)) going

/-- Raising the ceiling changes nothing for a run that does not hit the lower one, as long as no
more conditional sets stand in one another than the lower one counts: the result is the same, be it
a tree or an ambiguous tag, and so are the rolls drawn and the state left, but for the ceiling. -/
theorem expandWith_of_higher_ceiling {grammar : Grammar} {low high : Nat} (rule : String)
    (options : ExpandOptions) (rolls : Rolls) (higher : low ≤ high)
    (shallow : grammar.NestsWithin low)
    (untripped : ((grammar.withCeiling low).expandWith rule options rolls).2.tripped = false) :
    (grammar.withCeiling high).expandWith rule options rolls =
      (((grammar.withCeiling low).expandWith rule options rolls).1,
        ((grammar.withCeiling low).expandWith rule options rolls).2.withCeiling high) := by
  have fits : Fits low 0 (start (grammar.withCeiling low) rolls) :=
    ⟨rfl, rfl, grammar.nestsWithin_withCeiling low shallow⟩
  have expands : Lifts high (Run.expandOnce (.root rule) options.preventRecursion)
      (Run.expandOnce (.root rule) options.preventRecursion)
      (start (grammar.withCeiling low) rolls) := by
    cases options.preventRecursion with
    | true => exact lifts_previewNode higher _ (Node.fresh_root rule) fits
    | false => exact liftable_expandNode higher _ (Node.fresh_root rule) _ fits
  have whole : Lifts high (Run.expandRule rule options) (Run.expandRule rule options)
      (start (grammar.withCeiling low) rolls) := expands.bind (.pure _ _)
  exact whole.same untripped

/-- A scene that depends on the time, and at night on the weather too. -/
def nightScene : Grammar :=
  .ofWritten [
    ("scene", .conditional "#time#"
      [("night", .conditional "#weather#" [("rain", .one "wet night")] ["dry night"])] ["day"]),
    ("time", .one "night"),
    ("weather", .one "rain")] {}

theorem expandWith_of_higher_ceiling_nightScene :
    let rolls : Rolls := { stream := fun _ => default }
    nightScene.NestsWithin 4 ∧
      ((nightScene.withCeiling 4).expandWith "#scene#" {} rolls).2.tripped = false ∧
      ((nightScene.withCeiling 64).expandWith "#scene#" {} rolls).1.toOption.map (·.text) =
        some "wet night" := by
  intro rolls
  have shallow : nightScene.NestsWithin 4 := Grammar.nestsWithin_of_symbols (by decide)
  have untripped : ((nightScene.withCeiling 4).expandWith "#scene#" {} rolls).2.tripped =
      false := by
    simp only [rolls]
    cbv
  have text : ((nightScene.withCeiling 4).expandWith "#scene#" {} rolls).1.toOption.map
      (·.text) = some "wet night" := by
    simp only [rolls]
    cbv
  have same := expandWith_of_higher_ceiling "#scene#" {} _ (by decide : 4 ≤ 64) shallow untripped
  exact ⟨shallow, untripped, by simpa only [same] using text⟩

end TextGrammar
