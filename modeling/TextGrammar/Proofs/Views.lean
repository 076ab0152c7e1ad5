import TextGrammar.Proofs.Stacks

/-! # Grammars seen through a view

A view leaves something out of every symbol of a grammar and of its subgrammars. Two grammars that
look the same through a view may differ in what it leaves out. Where the view is faithful, nothing
that is done with a grammar tells them apart: selections read the cleared sets of a stack, which
show, and what pushes, pops and selections leave looks the same again.
-/

namespace TextGrammar

/-- Where two options look the same, both are empty or hold values that look the same. -/
theorem none_or_some_of_map_eq {α β : Type} {view : α → β} {one other : Option α}
    (same : one.map view = other.map view) :
    one = none ∧ other = none ∨
      ∃ value twin, one = some value ∧ other = some twin ∧ view value = view twin := by
  cases one with
  | none => exact .inl ⟨rfl, Option.map_eq_none_iff.mp same.symm⟩
  | some value =>
    obtain ⟨twin, found, alike⟩ := Option.map_eq_some_iff.mp same.symm
    exact .inr ⟨value, twin, rfl, found, alike.symm⟩

namespace RuleSet

theorem clearBranches_eq_map (branches : List (String × RuleSet)) :
    clearBranches branches = branches.map fun entry => (entry.1, entry.2.clear) := by
  induction branches with
  | nil => rfl
  | cons entry rest ih => rw [clearBranches, ih, List.map_cons]

theorem branch?_clear (set : RuleSet) (key : String) :
    set.clear.branch? key = (set.branch? key).map clear := by
  cases set with
  | plain pool => rfl
  | conditional condition branches pool =>
    simp only [branch?, clear, RuleSet.branches, clearBranches_eq_map, Keyed.lookup_map]

theorem condition?_clear (set : RuleSet) : set.clear.condition? = set.condition? := by
  cases set <;> rfl

theorem descend?_clear (path : List String) (set : RuleSet) :
    set.clear.descend? path = (set.descend? path).map clear := by
  induction path generalizing set with
  | nil => rfl
  | cons key rest ih =>
    simp only [descend?, branch?_clear]
    cases set.branch? key with
    | none => rfl
    | some branch => exact ih branch

/-- What a selection answers, without the set that it leaves. -/
def Selected.answer (selected : Selected) : String × Rolls :=
  (selected.rule, selected.rolls)

theorem selectDefault?_clear (set : RuleSet) (rolls : Rolls) :
    (set.clear.selectDefault? rolls).map Selected.answer =
      (set.selectDefault? rolls).map Selected.answer := by
  have alternatives : set.clear.pool.alternatives = set.pool.alternatives := by
    cases set <;> rfl
  have falloff : set.clear.pool.falloff = set.pool.falloff := by
    cases set <;> rfl
  simp only [selectDefault?, alternatives, falloff, Option.map_map]
  rfl

/-- Selection does not read the counters. -/
theorem select?_clear (path : List String) (set : RuleSet) (rolls : Rolls) :
    (set.clear.select? rolls path).map Selected.answer =
      (set.select? rolls path).map Selected.answer := by
  induction path generalizing set with
  | nil => exact selectDefault?_clear set rolls
  | cons key rest ih =>
    simp only [select?, branch?_clear]
    cases set.branch? key with
    | none => exact selectDefault?_clear set rolls
    | some branch =>
      have inner := ih branch
      simp only [Option.map_some, Option.bind_some]
      cases selects : branch.select? rolls rest with
      | none =>
        rw [selects, Option.map_none, Option.map_eq_none_iff] at inner
        rw [inner]
        exact selectDefault?_clear set rolls
      | some selected =>
        rw [selects, Option.map_some, Option.map_eq_some_iff] at inner
        obtain ⟨other, cleared, same⟩ := inner
        rw [cleared]
        exact congrArg some same

end RuleSet

namespace Symbol

/-- What a selection answers, without the symbol that it leaves. -/
def Selection.answer (selection : Selection) : Option String × List Problem × Rolls :=
  (selection.rule, selection.problems, selection.rolls)

theorem top?_map_clear (symbol : Symbol) : symbol.top?.map RuleSet.clear = symbol.sets.head? :=
  List.head?_map.symm

/-- Selections answer the same where the cleared top sets are the same. -/
theorem answer_selectUnlogged {one other : Symbol} (key : one.key = other.key)
    (tops : one.sets.head? = other.sets.head?) (path : List String) (rolls : Rolls) :
    (one.selectUnlogged path rolls).answer = (other.selectUnlogged path rolls).answer := by
  rw [← top?_map_clear, ← top?_map_clear] at tops
  rcases none_or_some_of_map_eq tops with
    ⟨lacks, lacksToo⟩ | ⟨top, otherTop, stands, standsToo, sameTop⟩
  · have stack : one.stack = [] := List.head?_eq_none_iff.mp lacks
    have otherStack : other.stack = [] := List.head?_eq_none_iff.mp lacksToo
    simp only [selectUnlogged, stack, otherStack, key, Selection.answer]
  · obtain ⟨below, stack⟩ := List.head?_eq_some_iff.mp stands
    obtain ⟨otherBelow, otherStack⟩ := List.head?_eq_some_iff.mp standsToo
    have selects : (top.select? rolls path).map RuleSet.Selected.answer =
        (otherTop.select? rolls path).map RuleSet.Selected.answer := by
      rw [← RuleSet.select?_clear path top, sameTop, RuleSet.select?_clear]
    simp only [selectUnlogged, stack, otherStack]
    cases selected : top.select? rolls path with
    | none =>
      rw [selected, Option.map_none, eq_comm, Option.map_eq_none_iff] at selects
      simp only [selects, key, Selection.answer]
    | some taken =>
      rw [selected, Option.map_some, eq_comm, Option.map_eq_some_iff] at selects
      obtain ⟨otherTaken, otherSelected, same⟩ := selects
      simp only [RuleSet.Selected.answer, Prod.mk.injEq] at same
      simp only [otherSelected, Selection.answer, same.1, same.2]

/-- What shows of a symbol through a view decides what selections answer, and what shows of the
symbol after a push, a pop or a selection. -/
structure Faithful (view : Symbol → Symbol) : Prop where
  key {one other : Symbol} (same : view one = view other) : one.key = other.key
  sets {one other : Symbol} (same : view one = view other) : one.sets = other.sets
  push {one other : Symbol} (same : view one = view other) (set : RuleSet) :
    view (one.push set) = view (other.push set)
  drop {one other : Symbol} (same : view one = view other) :
    view { one with stack := one.stack.tail } = view { other with stack := other.stack.tail }
  log {one other : Symbol} (same : view one = view other) (origin : Option Place) :
    view { one with log := origin :: one.log } = view { other with log := origin :: other.log }
  selectUnlogged {one other : Symbol} (same : view one = view other) (path : List String)
    (rolls : Rolls) :
    view (one.selectUnlogged path rolls).symbol = view (other.selectUnlogged path rolls).symbol

end Symbol

namespace Grammar

mutual

/-- The grammar with each symbol as it shows through a view, in subgrammars too. -/
def through (view : Symbol → Symbol) : Grammar → Grammar
  | ⟨symbols, modifiers, subgrammars, settings⟩ =>
    ⟨symbols.map fun (key, symbol) => (key, view symbol), modifiers,
      throughAll view subgrammars, settings⟩

/-- Every grammar of a list as it shows through a view. -/
def throughAll (view : Symbol → Symbol) : List Grammar → List Grammar
  | [] => []
  | grammar :: rest => grammar.through view :: throughAll view rest

end

section

variable (view : Symbol → Symbol) (grammar : Grammar)

theorem through_symbols :
    (grammar.through view).symbols =
      grammar.symbols.map fun (key, symbol) => (key, view symbol) := by
  cases grammar
  rfl

theorem through_modifiers : (grammar.through view).modifiers = grammar.modifiers := by
  cases grammar
  rfl

theorem through_subgrammars :
    (grammar.through view).subgrammars = throughAll view grammar.subgrammars := by
  cases grammar
  rfl

theorem through_settings : (grammar.through view).settings = grammar.settings := by
  cases grammar
  rfl

theorem symbol?_through (key : String) :
    (grammar.through view).symbol? key = (grammar.symbol? key).map view := by
  rw [symbol?, through_symbols]
  exact Keyed.lookup_map view key grammar.symbols

theorem through_withSymbols (symbols : List (String × Symbol)) :
    { grammar with symbols }.through view =
      { grammar.through view with
        symbols := symbols.map fun (key, symbol) => (key, view symbol) } := by
  cases grammar
  rfl

theorem through_withSubgrammars (subgrammars : List Grammar) :
    { grammar with subgrammars }.through view =
      { grammar.through view with subgrammars := throughAll view subgrammars } := by
  cases grammar
  rfl

theorem through_insert (key : String) (symbol : Symbol) :
    { grammar with symbols := Keyed.insert key symbol grammar.symbols }.through view =
      { grammar.through view with
        symbols := Keyed.insert key (view symbol) (grammar.through view).symbols } := by
  rw [through_withSymbols, through_symbols]
  exact congrArg ({ grammar.through view with symbols := · })
    (Keyed.insert_map key (fun _ => view) symbol grammar.symbols)

end

section

variable {view : Symbol → Symbol} {one other : Grammar}

theorem modifier?_of_through (same : one.through view = other.through view) (name : String) :
    one.modifier? name = other.modifier? name := by
  rw [modifier?, modifier?, ← through_modifiers view one, same, through_modifiers]

theorem settings_of_through (same : one.through view = other.through view) :
    one.settings = other.settings := by
  rw [← through_settings view one, same, through_settings]

theorem findSome?_of_throughAll {subs others : List Grammar}
    (same : throughAll view subs = throughAll view others) (key : String) :
    (subs.findSome? (·.symbol? key)).map view = (others.findSome? (·.symbol? key)).map view := by
  have shows (grammars : List Grammar) : (grammars.findSome? (·.symbol? key)).map view =
      (throughAll view grammars).findSome? (·.symbol? key) := by
    induction grammars with
    | nil => rfl
    | cons grammar rest ih =>
      simp only [throughAll, List.findSome?_cons, symbol?_through]
      cases grammar.symbol? key with
      | some symbol => rfl
      | none => exact ih
  rw [shows, shows, same]

/-- Either has a symbol where the other has one, and the two look the same. -/
theorem symbol?_of_through (same : one.through view = other.through view) (key : String) :
    one.symbol? key = none ∧ other.symbol? key = none ∨
      ∃ symbol twin, one.symbol? key = some symbol ∧ other.symbol? key = some twin ∧
        view symbol = view twin := by
  refine none_or_some_of_map_eq ?_
  rw [← symbol?_through, ← symbol?_through, same]

theorem through_insert_congr (same : one.through view = other.through view) (key : String)
    {symbol twin : Symbol} (alike : view symbol = view twin) :
    { one with symbols := Keyed.insert key symbol one.symbols }.through view =
      { other with symbols := Keyed.insert key twin other.symbols }.through view := by
  rw [through_insert, through_insert, same, alike]

variable (faithful : Symbol.Faithful view)
include faithful

theorem through_push (same : one.through view = other.through view) (key : String)
    (alternatives : List String) :
    (one.push key alternatives).through view = (other.push key alternatives).through view := by
  have set : one.pushedSet alternatives = other.pushedSet alternatives := by
    simp only [pushedSet, settings_of_through same]
  rcases symbol?_of_through same key with
    ⟨missing, missingToo⟩ | ⟨symbol, twin, found, foundToo, alike⟩
  · simp only [push, missing, missingToo, set]
    exact through_insert_congr same key rfl
  · simp only [push, found, foundToo, set]
    exact through_insert_congr same key (faithful.push alike _)

theorem through_pop (same : one.through view = other.through view) (key : String) :
    (∃ problem, one.pop key = .error problem ∧ other.pop key = .error problem) ∨
      ∃ taken twinTaken, one.pop key = .ok taken ∧ other.pop key = .ok twinTaken ∧
        taken.2.through view = twinTaken.2.through view := by
  rcases symbol?_of_through same key with
    ⟨missing, missingToo⟩ | ⟨symbol, twin, found, foundToo, alike⟩
  · simp only [pop, missing, missingToo]
    exact .inl ⟨_, rfl, rfl⟩
  · have sets := faithful.sets alike
    have dropped := faithful.drop alike
    simp only [Symbol.sets, Symbol.bare] at sets
    simp only [pop, found, foundToo, Symbol.pop]
    cases stack : symbol.stack with
    | nil =>
      rw [stack, List.map_nil, eq_comm, List.map_eq_nil_iff] at sets
      simp only [sets, faithful.key alike]
      exact .inl ⟨_, rfl, rfl⟩
    | cons top below =>
      rw [stack, List.map_cons, eq_comm, List.map_eq_cons_iff] at sets
      obtain ⟨_, _, twinStack, _, _⟩ := sets
      rw [stack, twinStack, List.tail_cons, List.tail_cons] at dropped
      simp only [twinStack]
      exact .inr ⟨_, _, rfl, rfl, through_insert_congr same key dropped⟩

/-- The set that a selection would read is the same, counters aside. -/
theorem ruleSet?_of_through (same : one.through view = other.through view) (key : String) :
    (one.ruleSet? key).map RuleSet.clear = (other.ruleSet? key).map RuleSet.clear := by
  have tops {symbol twin : Symbol} (alike : view symbol = view twin) :
      symbol.top?.map RuleSet.clear = twin.top?.map RuleSet.clear := by
    rw [symbol.top?_map_clear, twin.top?_map_clear, faithful.sets alike]
  rcases symbol?_of_through same key with
    ⟨missing, missingToo⟩ | ⟨symbol, twin, found, foundToo, alike⟩
  · have subs : throughAll view one.subgrammars = throughAll view other.subgrammars := by
      rw [← through_subgrammars, same, through_subgrammars]
    simp only [ruleSet?, missing, missingToo]
    rcases none_or_some_of_map_eq (findSome?_of_throughAll subs key) with
      ⟨lacks, lacksToo⟩ | ⟨symbol, twin, found, foundToo, alike⟩
    · rw [lacks, lacksToo]
    · rw [found, foundToo]
      exact tops alike
  · simp only [ruleSet?, found, foundToo]
    exact tops alike

theorem through_selectAmong? {subs others : List Grammar}
    (same : throughAll view subs = throughAll view others) (key : String) (path : List String)
    (rolls : Rolls) :
    (selectAmong? key path rolls subs).map
        (fun (selection, next) => (selection.answer, throughAll view next)) =
      (selectAmong? key path rolls others).map
        fun (selection, next) => (selection.answer, throughAll view next) := by
  induction subs generalizing others with
  | nil =>
    cases others with
    | nil => rfl
    | cons => simp only [throughAll, reduceCtorEq] at same
  | cons sub rest ih =>
    cases others with
    | nil => simp only [throughAll, reduceCtorEq] at same
    | cons twinSub twinRest =>
      simp only [throughAll, List.cons.injEq] at same
      obtain ⟨first, later⟩ := same
      rcases symbol?_of_through first key with
        ⟨missing, missingToo⟩ | ⟨symbol, twin, found, foundToo, alike⟩
      · simp only [selectAmong?, missing, missingToo]
        rcases none_or_some_of_map_eq (ih later) with
          ⟨lacks, lacksToo⟩ | ⟨chosen, chosenToo, selects, selectsToo, answers⟩
        · rw [lacks, lacksToo]
          rfl
        · simp only [Prod.mk.injEq] at answers
          simp only [selects, selectsToo, Option.map_some, throughAll, first, answers]
      · have answers := Symbol.answer_selectUnlogged (faithful.key alike)
          (congrArg List.head? (faithful.sets alike)) path rolls
        have left := through_insert_congr first key (faithful.selectUnlogged alike path rolls)
        simp only [selectAmong?, found, foundToo, Option.map_some, throughAll, answers, left, later]

/-- What a selection answers, without the grammar that it leaves. -/
def Selection.answer (selection : Selection) : Option String × List Problem × Rolls :=
  (selection.rule, selection.problems, selection.rolls)

/-- The places that two selections are made for need only look the same in the logs. -/
theorem through_select {origin twinOrigin : Option Place}
    (logged : ∀ {symbol twin : Symbol}, view symbol = view twin →
      view { symbol with log := origin :: symbol.log } =
        view { twin with log := twinOrigin :: twin.log })
    (same : one.through view = other.through view) (key : String) (path : List String)
    (rolls : Rolls) :
    (one.select key origin path rolls).answer = (other.select key twinOrigin path rolls).answer ∧
      (one.select key origin path rolls).grammar.through view =
        (other.select key twinOrigin path rolls).grammar.through view := by
  rcases symbol?_of_through same key with
    ⟨missing, missingToo⟩ | ⟨symbol, twin, found, foundToo, alike⟩
  · have subs : throughAll view one.subgrammars = throughAll view other.subgrammars := by
      rw [← through_subgrammars, same, through_subgrammars]
    simp only [select, missing, missingToo]
    rcases none_or_some_of_map_eq (through_selectAmong? faithful subs key path rolls) with
      ⟨lacks, lacksToo⟩ | ⟨chosen, chosenToo, selects, selectsToo, answers⟩
    · simp only [lacks, lacksToo, Selection.answer]
      exact ⟨trivial, same⟩
    · simp only [Prod.mk.injEq] at answers
      obtain ⟨answers, left⟩ := answers
      simp only [selects, selectsToo]
      refine ⟨answers, ?_⟩
      rw [through_withSubgrammars, through_withSubgrammars, same, left]
  · have answers := Symbol.answer_selectUnlogged (faithful.key (logged alike))
      (congrArg List.head? (faithful.sets (logged alike))) path rolls
    have left := faithful.selectUnlogged (logged alike) path rolls
    simp only [select, found, foundToo, Symbol.select]
    exact ⟨answers, through_insert_congr same key left⟩

end

end Grammar

end TextGrammar
