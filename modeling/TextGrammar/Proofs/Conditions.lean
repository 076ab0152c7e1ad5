import TextGrammar.Proofs.Nesting
import TextGrammar.Proofs.Usage

/-! # Selection by the rules

A conditional selection is written down here as a recursion on the set: evaluate the condition, go
into the branch with its text, and do the same there; only when no condition is left, pick from the
pool of the set reached, and from the pools around it, inside out, as long as they offer nothing.
The engine goes about it differently. It looks the set up anew for each condition, gathers the texts
in a path, and hands the path to the symbol that it finds then. As long as the conditions leave the
symbol that supplies the name as it is, records of use aside, both come to the same.
-/

namespace TextGrammar

open Engine Expansion

namespace Run

/-- Draw a roll. -/
def draw : Run Float := fun state =>
  (state.rolls.head, { state with rolls := state.rolls.tail })

/-- Pick from a pool. An empty pool offers nothing, and no roll is drawn for it. -/
def pick (pool : Pool) : Run (Option String) := do
  if pool.alternatives = [] then return none
  let roll ← draw
  return pool.alternatives[pickIndex pool.falloff roll pool.alternatives.length]?

/-- Leave a choice to a pool if nothing is on offer. -/
def orPick (pool : Pool) (report : Report (Option String)) : Run (Report (Option String)) := do
  match report.result with
  | .ok none => return { report with result := .ok (← pick pool) }
  | _ => return report

/-- Select from a set: evaluate its condition with escape markers in place, and select in the same
way from the branch with this very text. A set without a condition or such a branch, and a set whose
branch offers nothing, leaves the choice to its own pool. -/
def selectIn (set : RuleSet) : Run (Report (Option String)) := do
  match set.condition? with
  | none => orPick set.pool ⟨.ok none, []⟩
  | some condition =>
    match ← expandRule condition .nested with
    | .error tag => return ⟨.error tag, []⟩
    | .ok node =>
      match _ : set.branch? node.text with
      | none => orPick set.pool ⟨.ok none, node.errors⟩
      | some branch =>
        let report ← selectIn branch
        orPick set.pool { report with problems := node.errors ++ report.problems }
termination_by set.nesting
decreasing_by exact RuleSet.nesting_lt_of_branch? ‹_›

/-- Select from the set on top of a symbol's stack, and note if it offers nothing. -/
def selectFrom (symbol : Symbol) (top : RuleSet) : Run (Report (Option String)) := do
  let report ← selectIn top
  match report.result with
  | .ok none => return { report with problems := report.problems ++ [.noDefaultRules symbol.key] }
  | _ => return report

end Run

/-- The symbol that selections of a name read: the grammar's own, or else that of the first
subgrammar that has one. -/
def Grammar.supplied? (grammar : Grammar) (key : String) : Option Symbol :=
  (grammar.symbol? key).or (grammar.subgrammars.findSome? (·.symbol? key))

/-- The conditions that a selection from a set evaluates leave the symbol that supplies a name as it
is, records of use aside. -/
inductive Undisturbed (key : String) : RuleSet → Expansion → Prop
  | plain {set : RuleSet} {state : Expansion} (ends : set.condition? = none) :
      Undisturbed key set state
  | conditional {set : RuleSet} {condition : String} {result : Except AmbiguousTag Node}
      {state later : Expansion} (asks : set.condition? = some condition)
      (evaluates : Run.expandRule condition .nested state = (result, later))
      (supplied : (later.grammar.supplied? key).map Symbol.unused =
        (state.grammar.supplied? key).map Symbol.unused)
      (inward : ∀ node branch, result = .ok node → set.branch? node.text = some branch →
        Undisturbed key branch later) :
      Undisturbed key set state

namespace RuleSet

theorem descend?_concat (set : RuleSet) (path : List String) (key : String) :
    set.descend? (path ++ [key]) = (set.descend? path).bind (·.branch? key) := by
  induction path generalizing set with
  | nil =>
    simp only [List.nil_append, descend?, Option.bind_some]
    cases set.branch? key <;> rfl
  | cons first rest ih =>
    simp only [List.cons_append, descend?]
    cases set.branch? first with
    | none => rfl
    | some branch => exact ih branch

/-- A set with a condition counts. -/
theorem nesting_pos {set : RuleSet} {condition : String} (asks : set.condition? = some condition) :
    0 < set.nesting := by
  cases set with
  | plain pool => contradiction
  | conditional own branches pool => exact Nat.succ_pos _

theorem branch?_congr {set twin : RuleSet} (same : set.clear = twin.clear) (key : String) :
    (set.branch? key).map clear = (twin.branch? key).map clear := by
  rw [← branch?_clear, same, branch?_clear]

end RuleSet

namespace Grammar

theorem ruleSet?_eq_supplied? (grammar : Grammar) (key : String) :
    grammar.ruleSet? key = (grammar.supplied? key).bind Symbol.top? := by
  simp only [ruleSet?, supplied?]
  cases grammar.symbol? key <;> rfl

/-- What a selection reads is, counters aside, a matter of the symbol that supplies the name. -/
theorem ruleSet?_congr {one other : Grammar} {key : String}
    (supplied : (one.supplied? key).map Symbol.unused = (other.supplied? key).map Symbol.unused) :
    (one.ruleSet? key).map RuleSet.clear = (other.ruleSet? key).map RuleSet.clear := by
  have shows (grammar : Grammar) : (grammar.ruleSet? key).map RuleSet.clear =
      ((grammar.supplied? key).map Symbol.unused).bind Symbol.top? := by
    rw [ruleSet?_eq_supplied?]
    cases grammar.supplied? key with
    | none => rfl
    | some symbol => exact List.head?_map.symm
  rw [shows, shows, supplied]

theorem selectAmong?_of_findSome? {key : String} {subs : List Grammar} {symbol : Symbol}
    (supplied : subs.findSome? (·.symbol? key) = some symbol) (path : List String)
    (rolls : Rolls) :
    ∃ next, selectAmong? key path rolls subs = some (symbol.selectUnlogged path rolls, next) := by
  induction subs with
  | nil => contradiction
  | cons sub rest ih =>
    rw [List.findSome?_cons] at supplied
    rw [selectAmong?]
    cases found : sub.symbol? key with
    | some own =>
      simp only [found, Option.some.injEq] at supplied
      subst supplied
      exact ⟨_, rfl⟩
    | none =>
      simp only [found] at supplied
      obtain ⟨next, selects⟩ := ih supplied
      exact ⟨sub :: next, by rw [selects, Option.map_some]⟩

/-- A selection answers what the symbol answers that supplies the name. -/
theorem answer_select {grammar : Grammar} {key : String} {symbol : Symbol}
    (supplied : grammar.supplied? key = some symbol) (origin : Option Place) (path : List String)
    (rolls : Rolls) :
    (grammar.select key origin path rolls).answer =
      (symbol.selectUnlogged path rolls).answer := by
  rw [supplied?] at supplied
  rw [select]
  cases found : grammar.symbol? key with
  | some own =>
    rw [found, Option.some_or, Option.some.injEq] at supplied
    subst supplied
    have logged : Symbol.unused { own with log := origin :: own.log } = own.unused := rfl
    obtain ⟨key, _, sets, _⟩ := Symbol.unused_eq_iff.mp logged
    exact Symbol.answer_selectUnlogged key (congrArg List.head? sets) path rolls
  | none =>
    rw [found, Option.none_or] at supplied
    obtain ⟨next, selects⟩ := selectAmong?_of_findSome? supplied path rolls
    simp only [selects]
    rfl

end Grammar

namespace Expansion

variable {key : String} {path : List String} {one other state : Expansion} {set : RuleSet}

theorem setAt?_congr (supplied : (one.grammar.supplied? key).map Symbol.unused =
      (other.grammar.supplied? key).map Symbol.unused) :
    (one.setAt? key path).map RuleSet.clear = (other.setAt? key path).map RuleSet.clear := by
  rw [clear_setAt?, clear_setAt?, Grammar.ruleSet?_congr supplied]

theorem setAt?_concat (text : String) :
    state.setAt? key (path ++ [text]) = (state.setAt? key path).bind (·.branch? text) := by
  simp only [setAt?, Option.bind_assoc, RuleSet.descend?_concat]

/-- A set stands where a path leads, counters aside. -/
def Stands (state : Expansion) (key : String) (path : List String) (set : RuleSet) : Prop :=
  (state.setAt? key path).map RuleSet.clear = some set.clear

namespace Stands

variable (stands : state.Stands key path set)
include stands

theorem condition?_eq : state.condition? key path = set.condition? := by
  rw [condition?_eq_clear, stands, Option.bind_some, set.condition?_clear]

theorem leads_eq (text : String) :
    state.leads key path text = (set.branch? text).isSome := by
  rw [leads_eq_clear, stands, Option.bind_some, set.branch?_clear, Option.isSome_map]

theorem branch {text : String} {branch : RuleSet} (found : set.branch? text = some branch) :
    state.Stands key (path ++ [text]) branch := by
  obtain ⟨twin, reached, same⟩ := Option.map_eq_some_iff.mp stands
  rw [Stands, setAt?_concat, reached, Option.bind_some, RuleSet.branch?_congr same, found]
  rfl

end Stands

end Expansion

namespace Run

/-- What a set offers along a path. -/
def offer (set : RuleSet) (path : List String) : Run (Option String) := fun state =>
  match set.select? state.rolls path with
  | some selected => (some selected.rule, { state with rolls := selected.rolls })
  | none => (none, state)

variable {set branch : RuleSet} {state later : Expansion} {key condition : String} {node : Node}

theorem selectIn_of_none (ends : set.condition? = none) :
    selectIn set = orPick set.pool ⟨.ok none, []⟩ := by
  rw [selectIn, ends]

section

variable (asks : set.condition? = some condition)
include asks

theorem selectIn_of_error {tag : AmbiguousTag}
    (evaluates : expandRule condition .nested state = (.error tag, later)) :
    selectIn set state = (⟨.error tag, []⟩, later) := by
  rw [selectIn, asks]
  simp only [bind_apply, evaluates]
  rfl

variable (evaluates : expandRule condition .nested state = (.ok node, later))
include evaluates

theorem selectIn_of_astray (astray : set.branch? node.text = none) :
    selectIn set state = orPick set.pool ⟨.ok none, node.errors⟩ later := by
  rw [selectIn, asks]
  change (expandRule condition .nested >>= _) state = _
  rw [bind_apply, evaluates]
  dsimp only
  apply congrFun
  split
  · rfl
  · next leads => exact absurd (astray.symm.trans leads) (Option.some_ne_none _).symm

theorem selectIn_of_branch (leads : set.branch? node.text = some branch) :
    selectIn set state = (selectIn branch >>= fun report =>
      orPick set.pool { report with problems := node.errors ++ report.problems }) later := by
  rw [selectIn, asks]
  change (expandRule condition .nested >>= _) state = _
  rw [bind_apply, evaluates]
  dsimp only
  apply congrFun
  split
  · next astray => exact absurd (astray.symm.trans leads) (Option.some_ne_none _).symm
  · next other found => rw [Option.some.inj (found.symm.trans leads)]

end

theorem pick_apply (set : RuleSet) (state : Expansion) :
    pick set.pool state = match set.selectDefault? state.rolls with
      | some selected => (some selected.rule, { state with rolls := selected.rolls })
      | none => (none, state) := by
  simp only [pick, RuleSet.selectDefault?]
  by_cases empty : set.pool.alternatives = []
  · simp only [empty, ↓reduceIte, List.getElem?_nil, Option.map_none]
    rfl
  · have within := pickIndex_lt set.pool.falloff state.rolls.head (List.length_pos_iff.mpr empty)
    simp only [empty, ↓reduceIte, List.getElem?_eq_getElem within, Option.map_some]
    change (set.pool.alternatives[_]?, _) = _
    rw [List.getElem?_eq_getElem within]

theorem offer_nil (set : RuleSet) : offer set [] = pick set.pool := by
  funext state
  rw [pick_apply]
  rfl

theorem offer_cons (found : set.branch? key = some branch) (rest : List String) :
    offer set (key :: rest) = (do
      match ← offer branch rest with
      | some rule => return some rule
      | none => pick set.pool) := by
  funext state
  simp only [bind_apply, offer, RuleSet.select?, found, Option.bind_some]
  cases branch.select? state.rolls rest with
  | some selected => rfl
  | none => exact (pick_apply set state).symm

end Run

theorem Run.expandRule_nested (rule : String) :
    Run.expandRule rule .nested = expandNested expandNode rule := by
  funext state
  simp only [expandRule, ExpandOptions.nested, expandOnce, expandNested, Run.bind_apply,
    Bool.false_eq_true, ↓reduceIte, Run.pure_apply]
  cases (expandNode (.root rule) state).1.result <;> rfl

/-- What the set at the end of a path offers, once conditions were evaluated from there on; the part
of the reached path that lies behind is given by its length. -/
def Run.offered (set : RuleSet) (behind : Nat) (conditions : Report (List String)) :
    Run (Report (Option String)) :=
  match conditions.result with
  | .error tag => pure ⟨.error tag, conditions.problems⟩
  | .ok reached => do return ⟨.ok (← Run.offer set (reached.drop behind)), conditions.problems⟩

/-- Conditions are evaluated from a path on inward. -/
theorem prefix_conditionPath {inner : Expander} {key : String} {steps : Nat}
    {path reached : List String} {state : Expansion}
    (through : (conditionPath inner key steps path state).1.result = .ok reached) :
    path <+: reached := by
  induction steps generalizing path state with
  | zero =>
    cases through
    exact List.prefix_rfl
  | succ steps ih =>
    cases asks : state.condition? key path with
    | none =>
      rw [conditionPath_of_none inner steps asks] at through
      cases through
      exact List.prefix_rfl
    | some condition =>
      rw [conditionPath_of_some inner steps asks, Run.bind_apply] at through
      rcases evaluates : expandNested inner condition state with ⟨_ | node, later⟩
      · rw [evaluates] at through
        contradiction
      rw [evaluates] at through
      cases leads : later.leads key path node.text with
      | true =>
        simp only [follow_of_leads inner steps leads, Run.bind_apply] at through
        exact (List.prefix_append _ _).trans (ih through)
      | false =>
        simp only [follow_of_astray inner steps (ne_true_of_eq_false leads)] at through
        cases through
        exact List.prefix_rfl

/-- The loop over conditions from a set that stands at the end of a path: it leaves the symbol that
supplies the name, and what is picked along the path that it gives is what the rules of selection
say. -/
structure Follows (key : String) (set : RuleSet) (path : List String) (state : Expansion)
    (loop : Report (List String) × Expansion) : Prop where
  supplied : (loop.2.grammar.supplied? key).map Symbol.unused =
    (state.grammar.supplied? key).map Symbol.unused
  answers : Run.selectIn set state = Run.offered set path.length loop.1 loop.2

theorem follows_conditionPath {key : String} {set : RuleSet} {path : List String} {steps : Nat}
    {state : Expansion} (undisturbed : Undisturbed key set state)
    (stands : state.Stands key path set) (room : set.nesting ≤ steps) :
    Follows key set path state (conditionPath expandNode key steps path state) := by
  induction undisturbed generalizing path steps with
  | @plain set state ends =>
    have settled : conditionPath expandNode key steps path state = (⟨.ok path, []⟩, state) := by
      cases steps with
      | zero => rfl
      | succ steps => exact conditionPath_of_none expandNode steps (stands.condition?_eq.trans ends)
    rw [settled]
    refine ⟨rfl, ?_⟩
    simp only [Run.selectIn_of_none ends, Run.offered, List.drop_length, Run.offer_nil]
    rfl
  | @conditional set condition result state later asks evaluates supplied inward ih =>
    obtain ⟨steps, rfl⟩ : ∃ rest, steps = rest + 1 :=
      Nat.exists_eq_add_one.mpr (Nat.lt_of_lt_of_le (RuleSet.nesting_pos asks) room)
    have expands : expandNested expandNode condition state = (result, later) := by
      rw [← Run.expandRule_nested, evaluates]
    have remains : later.Stands key path set := (setAt?_congr supplied).trans stands
    rw [conditionPath_of_some expandNode steps (stands.condition?_eq.trans asks), Run.bind_apply,
      expands]
    cases result with
    | error tag => exact ⟨supplied, Run.selectIn_of_error asks evaluates⟩
    | ok node =>
      cases leads : set.branch? node.text with
      | none =>
        have strays : later.leads key path node.text ≠ true := by
          rw [remains.leads_eq, leads]
          exact Bool.false_ne_true
        rw [follow_of_astray expandNode steps strays]
        refine ⟨supplied, ?_⟩
        simp only [Run.selectIn_of_astray asks evaluates leads, Run.offered, List.drop_length,
          Run.offer_nil]
        rfl
      | some branch =>
        have goesOn : later.leads key path node.text = true := by
          rw [remains.leads_eq, leads]
          rfl
        have shallower : branch.nesting ≤ steps :=
          Nat.le_of_lt_succ (Nat.lt_of_lt_of_le (RuleSet.nesting_lt_of_branch? leads) room)
        have deeper := ih node branch rfl leads (remains.branch leads) shallower
        have onward (reached : List String) :=
          @prefix_conditionPath expandNode key steps (path ++ [node.text]) reached later
        rw [follow_of_leads expandNode steps goesOn]
        simp only [Run.bind_apply]
        generalize conditionPath expandNode key steps (path ++ [node.text]) later = loop
          at deeper onward ⊢
        refine ⟨deeper.supplied.trans supplied, ?_⟩
        rw [Run.selectIn_of_branch asks evaluates leads, Run.bind_apply, deeper.answers]
        cases through : loop.1.result with
        | error tag =>
          simp only [Run.offered, through]
          rfl
        | ok reached =>
          -- What was reached lies behind the branch, so the rest begins with its text.
          obtain ⟨rest, rfl⟩ := onward reached through
          have here : (path ++ [node.text] ++ rest).drop path.length = node.text :: rest := by
            rw [List.append_assoc, List.drop_left, List.singleton_append]
          simp only [Run.offered, Run.pure_apply, through, here, List.drop_left,
            Run.offer_cons leads, Run.bind_apply]
          cases (Run.offer branch rest loop.2).1 <;> rfl

namespace Grammar

/-- The grammar's own symbol of a name as if it had never been used. -/
def unusedSymbol? (grammar : Grammar) (key : String) : Option Symbol :=
  (grammar.symbol? key).map Symbol.unused

variable (grammar : Grammar) (key : String) (origin : Option Place) (path : List String)
  (rolls : Rolls)

theorem unusedSymbol?_select :
    (grammar.select key origin path rolls).grammar.unusedSymbol? = grammar.unusedSymbol? := by
  funext other
  rw [unusedSymbol?, symbol?_select]
  split
  · next same =>
    rw [same, Option.map_map]
    exact Option.map_congr fun symbol _ => Symbol.unused_selectUnlogged _ path rolls
  · rfl

theorem unusedSymbol?_subgrammars_select :
    (grammar.select key origin path rolls).grammar.subgrammars.map unusedSymbol? =
      grammar.subgrammars.map unusedSymbol? := by
  -- The counters of the stack are aside already; the base and the log are put aside from there.
  let hide (symbol : Symbol) : Symbol := { symbol with base := symbol.base.clear, log := [] }
  have shows (subs : List Grammar) : subs.map unusedSymbol? =
      (subs.map bareSymbol?).map fun symbols key => (symbols key).map hide := by
    rw [List.map_map]
    refine List.map_congr_left fun sub _ => ?_
    funext key
    exact (Option.map_map hide Symbol.bare (sub.symbol? key)).symm
  rw [shows, shows, bareSymbol?_subgrammars_select]

end Grammar

/-- Two states that hold the same, in their subgrammars too, but for records of use and journals. -/
structure Expansion.SameButUse (one other : Expansion) : Prop where
  symbols : one.grammar.unusedSymbol? = other.grammar.unusedSymbol?
  subgrammars : one.grammar.subgrammars.map Grammar.unusedSymbol? =
    other.grammar.subgrammars.map Grammar.unusedSymbol?
  modifiers : one.grammar.modifiers = other.grammar.modifiers
  settings : one.grammar.settings = other.grammar.settings
  rolls : one.rolls = other.rolls
  limit : one.limit = other.limit
  depth : one.depth = other.depth
  tripped : one.tripped = other.tripped

/-- A symbol answers a selection with what its top set offers. -/
theorem Symbol.answer_of_top? {symbol : Symbol} {top : RuleSet} (active : symbol.top? = some top)
    (path : List String) (rolls : Rolls) :
    (symbol.selectUnlogged path rolls).answer = match top.select? rolls path with
      | some selected => (some selected.rule, [], selected.rolls)
      | none => (none, [.noDefaultRules symbol.key], rolls) := by
  obtain ⟨below, stack⟩ := List.head?_eq_some_iff.mp active
  rw [selectUnlogged, stack]
  cases selects : top.select? rolls path <;> simp only [selects] <;> rfl

/-- A selection along a path that was reached gives what the top set of the symbol offers that
supplies the name, notes if that is nothing, and changes nothing but records of use. -/
theorem choose_of_supplied {key : String} {symbol : Symbol} {top : RuleSet} {later : Expansion}
    (supplied : (later.grammar.supplied? key).map Symbol.unused = some symbol.unused)
    (active : symbol.top? = some top) (origin : Option Place) (path : List String)
    (problems : List Problem) :
    let offered := Run.offer top path later
    let chosen := choose key origin ⟨.ok path, problems⟩ later
    chosen.1 = ⟨.ok offered.1, problems ++
        if offered.1 = none then [.noDefaultRules symbol.key] else []⟩ ∧
      chosen.2.SameButUse offered.2 := by
  intro offered chosen
  obtain ⟨twin, found, same⟩ := Option.map_eq_some_iff.mp supplied
  obtain ⟨name, _, sets, _⟩ := Symbol.unused_eq_iff.mp same
  have answers := (Grammar.answer_select found origin path later.rolls).trans
    ((Symbol.answer_selectUnlogged name (congrArg List.head? sets) path later.rolls).trans
      (symbol.answer_of_top? active path later.rolls))
  have symbols := later.grammar.unusedSymbol?_select key origin path later.rolls
  have subgrammars := later.grammar.unusedSymbol?_subgrammars_select key origin path later.rolls
  have modifiers := later.grammar.modifiers_select key origin path later.rolls
  have settings := later.grammar.settings_select key origin path later.rolls
  simp only [offered, chosen, choose, Run.offer, Run.select, Run.bind_apply, Run.pure_apply]
  generalize later.grammar.select key origin path later.rolls = selection
    at answers symbols subgrammars modifiers settings
  simp only [Grammar.Selection.answer] at answers
  cases selects : top.select? later.rolls path with
  | some selected =>
    simp only [selects, Prod.mk.injEq] at answers
    obtain ⟨rule, noted, rolls⟩ := answers
    simp only [rule, noted, rolls, reduceCtorEq, ↓reduceIte]
    exact ⟨trivial, symbols, subgrammars, modifiers, settings, rfl, rfl, rfl, rfl⟩
  | none =>
    simp only [selects, Prod.mk.injEq] at answers
    obtain ⟨rule, noted, rolls⟩ := answers
    simp only [rule, noted, rolls, ↓reduceIte]
    exact ⟨trivial, symbols, subgrammars, modifiers, settings, rfl, rfl, rfl, rfl⟩

/-- A conditional selection goes by the rules of selection, if the sets to select from nest no
deeper than the ceiling counts, and the conditions that are evaluated leave the symbol that supplies
the name as it is. It comes to the same rule or the same end, meets the same problems in the same
order, draws the same rolls, and leaves the same behind, records of use aside. -/
theorem selectRule_goes_by_rules {key : String} {symbol : Symbol} {top : RuleSet}
    {state : Expansion} (supplied : state.grammar.supplied? key = some symbol)
    (active : symbol.top? = some top) (room : top.nesting ≤ state.limit)
    (undisturbed : Undisturbed key top state) (origin : Option Place) :
    let selected := selectRule expandNode key origin state
    let specified := Run.selectFrom symbol top state
    selected.1 = specified.1 ∧ selected.2.SameButUse specified.2 := by
  intro selected specified
  have stands : state.Stands key [] top := by
    rw [Stands, setAt?, Grammar.ruleSet?_eq_supplied?, supplied, Option.bind_some, active]
    rfl
  have follows := follows_conditionPath undisturbed stands room
  simp only [selected, specified, selectRule_apply, Run.selectFrom, Run.bind_apply,
    follows.answers]
  generalize conditionPath expandNode key state.limit [] state = loop at follows
  obtain ⟨⟨result, problems⟩, later⟩ := loop
  cases result with
  | error tag => exact ⟨rfl, rfl, rfl, rfl, rfl, rfl, rfl, rfl, rfl⟩
  | ok path =>
    have kept := follows.supplied
    rw [supplied] at kept
    obtain ⟨report, left⟩ := choose_of_supplied kept active origin path problems
    dsimp only at report left
    rw [report]
    simp only [Run.offered, List.length_nil, List.drop_zero, Run.bind_apply, Run.pure_apply]
    generalize Run.offer top path later = offer at left
    obtain ⟨_ | rule, after⟩ := offer
    · exact ⟨rfl, left⟩
    · simp only [reduceCtorEq, ↓reduceIte, List.append_nil]
      exact ⟨rfl, left⟩

/-- Sets for a winter's day, which ask for the wind. -/
def winter : RuleSet :=
  .ofWritten 1 (.conditional "#wind#" [("north", .many [])] ["still"])

/-- Sets for every day, which ask for the season. -/
def weather : RuleSet :=
  .conditional "#season#" [("win\\#ter", winter)] (.fresh 1 ["mild"])

/-- A grammar that tells season and wind, and leaves the weather to a subgrammar. -/
def calendar : Grammar :=
  { symbols := [("season", .declared "season" (.ofAlternatives 1 ["win\\#ter"])),
      ("wind", .declared "wind" (.ofAlternatives 1 ["north"]))]
    subgrammars := [{ symbols := [("weather", .declared "weather" weather)] }]
    settings := { maxDepth := 2 } }

theorem unconditional_winter {text : String} {branch : RuleSet}
    (found : winter.branch? text = some branch) : branch.condition? = none := by
  have only : winter.branches = [("north", .plain (.fresh 1 []))] := rfl
  rw [RuleSet.branch?, only, List.lookup_cons] at found
  split at found
  · cases found
    rfl
  · contradiction

theorem undisturbed_calendar :
    Undisturbed "weather" weather (start calendar { stream := fun _ => default }) := by
  refine .conditional rfl Prod.mk.eta.symm (by cbv) fun node branch ends found => ?_
  have season : (Run.expandRule "#season#" .nested
      (start calendar { stream := fun _ => default })).1.toOption.map (·.text) =
        some "win\\#ter" := by
    cbv
  have reached : weather.branch? "win\\#ter" = some winter := by cbv
  rw [ends, Except.toOption, Option.map_some, Option.some.injEq] at season
  rw [season, reached] at found
  cases found
  exact .conditional rfl Prod.mk.eta.symm (by cbv) fun _ branch _ found =>
    .plain (unconditional_winter found)

/-- The season leads into the branch with its text, marker and all, and the wind to a set that
offers nothing, so the winter's day around it does. -/
theorem selectRule_goes_by_rules_calendar :
    let state := start calendar { stream := fun _ => default }
    ∃ symbol, state.grammar.supplied? "weather" = some symbol ∧ symbol.top? = some weather ∧
      weather.nesting ≤ state.limit ∧ Undisturbed "weather" weather state ∧
      (Run.selectFrom symbol weather state).1 = ⟨.ok (some "still"), []⟩ := by
  intro state
  have room : weather.nesting ≤ state.limit := by decide
  have undisturbed : Undisturbed "weather" weather state := undisturbed_calendar
  obtain ⟨report, _⟩ := selectRule_goes_by_rules rfl rfl room undisturbed none
  refine ⟨.declared "weather" weather, rfl, rfl, room, undisturbed, report.symm.trans ?_⟩
  simp only [state]
  cbv

end TextGrammar
