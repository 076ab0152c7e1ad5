import TextGrammar.Grammar
import TextGrammar.Proofs.Keyed

/-! # Stacks with their counters aside

Clearing a set zeroes its counters and nothing else, so two sets are the same up to their counters
exactly when their cleared forms are equal. Here is what pushing, popping and selecting do to the
cleared stacks of a grammar, to the marks of its symbols and to its subgrammars. A name without a
symbol has an empty stack, so these laws need no case for it.
-/

namespace TextGrammar

theorem pickIndex_lt (falloff roll : Float) {count : Nat} (some : 0 < count) :
    pickIndex falloff roll count < count := by
  simp only [pickIndex]
  split <;> omega

namespace RuleSet

theorem clear_countUse (pool : Pool) (index : Nat) : (pool.countUse index).clear = pool.clear := by
  simp only [Pool.countUse, Pool.clear, List.map_const', List.length_modify]

theorem clear_withPool {set : RuleSet} {pool : Pool} (same : pool.clear = set.pool.clear) :
    (set.withPool pool).clear = set.clear := by
  cases set with
  | plain own => simpa only [withPool, clear, RuleSet.pool] using congrArg RuleSet.plain same
  | conditional condition branches own =>
    simpa only [withPool, clear, RuleSet.pool] using
      congrArg (RuleSet.conditional condition (clearBranches branches)) same

theorem clearBranches_modify {key : String} {branch next : RuleSet}
    (branches : List (String × RuleSet)) (found : branches.lookup key = some branch)
    (same : next.clear = branch.clear) :
    clearBranches (Keyed.modify key (fun _ => next) branches) = clearBranches branches := by
  induction branches with
  | nil => rfl
  | cons entry rest ih =>
    rcases entry with ⟨other, set⟩
    simp only [Keyed.modify]
    split
    · next here =>
      rw [← here, List.lookup_cons_self] at found
      simp only [clearBranches, same, Option.some.inj found]
    · next elsewhere =>
      simp only [List.lookup_cons, beq_false_of_ne (Ne.symm elsewhere)] at found
      simp only [clearBranches, ih found]

theorem clear_withBranch {set branch next : RuleSet} {key : String}
    (found : set.branch? key = some branch) (same : next.clear = branch.clear) :
    (set.withBranch key next).clear = set.clear := by
  cases set with
  | plain pool => rfl
  | conditional condition branches pool =>
    simp only [withBranch, clear, clearBranches_modify branches found same]

theorem clear_selectDefault? {set : RuleSet} {rolls : Rolls} {selected : Selected}
    (success : set.selectDefault? rolls = some selected) : selected.set.clear = set.clear := by
  obtain ⟨rule, _, rfl⟩ := Option.map_eq_some_iff.mp success
  exact clear_withPool (clear_countUse _ _)

/-- Selection counts a use and changes nothing else of a set. -/
theorem clear_select? {set : RuleSet} {rolls : Rolls} {path : List String} {selected : Selected}
    (success : set.select? rolls path = some selected) : selected.set.clear = set.clear := by
  induction path generalizing set selected with
  | nil => exact clear_selectDefault? success
  | cons key rest ih =>
    simp only [select?] at success
    split at success
    · next inner chosen =>
      obtain ⟨branch, found, selects⟩ := Option.bind_eq_some_iff.mp chosen
      cases success
      exact clear_withBranch found (ih selects)
    · exact clear_selectDefault? success

end RuleSet

namespace Symbol

/-- The symbol with the counters of its stack at zero. -/
def bare (symbol : Symbol) : Symbol :=
  { symbol with stack := symbol.stack.map RuleSet.clear }

/-- The sets on the stack, top first, with their counters at zero. -/
def sets (symbol : Symbol) : List RuleSet :=
  symbol.bare.stack

theorem bare_selectUnlogged (symbol : Symbol) (path : List String) (rolls : Rolls) :
    (symbol.selectUnlogged path rolls).symbol.bare = symbol.bare := by
  cases stack : symbol.stack with
  | nil => simp only [selectUnlogged, stack]
  | cons top below =>
    cases selects : top.select? rolls path with
    | none => simp only [selectUnlogged, stack, selects]
    | some selected =>
      simp only [selectUnlogged, stack, selects, bare, List.map_cons, RuleSet.clear_select? selects]

theorem bare_select (symbol : Symbol) (origin : Option Place) (path : List String) (rolls : Rolls) :
    (symbol.select origin path rolls).symbol.bare =
      { symbol.bare with log := origin :: symbol.log } :=
  bare_selectUnlogged _ path rolls

theorem sets_select (symbol : Symbol) (origin : Option Place) (path : List String)
    (rolls : Rolls) : (symbol.select origin path rolls).symbol.sets = symbol.sets := by
  rw [sets, bare_select]
  rfl

theorem dynamic_select (symbol : Symbol) (origin : Option Place) (path : List String)
    (rolls : Rolls) : (symbol.select origin path rolls).symbol.dynamic = symbol.dynamic := by
  change (symbol.select origin path rolls).symbol.bare.dynamic = symbol.dynamic
  rw [bare_select]
  rfl

end Symbol

namespace Grammar

/-- The sets on the stack of a name, top first, with their counters at zero. -/
def setsOn (grammar : Grammar) (key : String) : List RuleSet :=
  ((grammar.symbol? key).map Symbol.sets).getD []

/-- Whether the grammar's own symbol of a name was created by a push, if there is one. -/
def mark? (grammar : Grammar) (key : String) : Option Bool :=
  (grammar.symbol? key).map (·.dynamic)

/-- The grammar's own symbol of a name with the counters of its stack at zero. -/
def bareSymbol? (grammar : Grammar) (key : String) : Option Symbol :=
  (grammar.symbol? key).map Symbol.bare

theorem symbol?_insert (grammar : Grammar) (key other : String) (symbol : Symbol) :
    { grammar with symbols := Keyed.insert key symbol grammar.symbols }.symbol? other =
      if other = key then some symbol else grammar.symbol? other :=
  Keyed.lookup_insert key other symbol grammar.symbols

/-- A push puts its set on the stack of its name, whether or not there was a symbol. -/
theorem setsOn_push (grammar : Grammar) (key other : String) (alternatives : List String) :
    (grammar.push key alternatives).setsOn other =
      if other = key then (grammar.pushedSet alternatives).clear :: grammar.setsOn key
      else grammar.setsOn other := by
  simp only [setsOn, push, symbol?_insert]
  split
  · cases found : grammar.symbol? key <;> rfl
  · rfl

/-- A push creates the symbol it lacks, and marks it. -/
theorem mark?_push (grammar : Grammar) (key other : String) (alternatives : List String) :
    (grammar.push key alternatives).mark? other =
      if other = key then some ((grammar.mark? key).getD true) else grammar.mark? other := by
  simp only [mark?, push, symbol?_insert]
  split
  · cases found : grammar.symbol? key <;> rfl
  · rfl

/-- A pop that succeeds takes the top off the stack of the grammar's own symbol. -/
theorem eq_of_pop {grammar next : Grammar} {key : String} {set : RuleSet}
    (popped : grammar.pop key = .ok (set, next)) : ∃ symbol below,
      grammar.symbol? key = some symbol ∧ symbol.stack = set :: below ∧
      next = { grammar with
        symbols := Keyed.insert key { symbol with stack := below } grammar.symbols } := by
  cases found : grammar.symbol? key with
  | none => simp only [pop, found, reduceCtorEq] at popped
  | some symbol =>
    cases stack : symbol.stack with
    | nil => simp only [pop, found, Symbol.pop, stack, reduceCtorEq] at popped
    | cons top below =>
      simp only [pop, found, Symbol.pop, stack] at popped
      cases popped
      exact ⟨symbol, below, rfl, stack, rfl⟩

/-- What is popped was on top. -/
theorem setsOn_of_pop {grammar next : Grammar} {key : String} {set : RuleSet}
    (popped : grammar.pop key = .ok (set, next)) (other : String) :
    grammar.setsOn other =
      if other = key then set.clear :: next.setsOn key else next.setsOn other := by
  obtain ⟨symbol, below, found, stack, rfl⟩ := eq_of_pop popped
  simp only [setsOn, symbol?_insert]
  split
  · next same =>
    simp only [same, found, ↓reduceIte, Option.map_some, Option.getD_some, Symbol.sets,
      Symbol.bare, stack, List.map_cons]
  · rfl

theorem mark?_of_pop {grammar next : Grammar} {key : String} {set : RuleSet}
    (popped : grammar.pop key = .ok (set, next)) (other : String) :
    next.mark? other = grammar.mark? other := by
  obtain ⟨symbol, below, found, _, rfl⟩ := eq_of_pop popped
  simp only [mark?, symbol?_insert]
  split
  · next same => simp only [same, found, Option.map_some]
  · rfl

theorem subgrammars_of_pop {grammar next : Grammar} {key : String} {set : RuleSet}
    (popped : grammar.pop key = .ok (set, next)) : next.subgrammars = grammar.subgrammars := by
  obtain ⟨_, _, _, _, rfl⟩ := eq_of_pop popped
  rfl

theorem settings_of_pop {grammar next : Grammar} {key : String} {set : RuleSet}
    (popped : grammar.pop key = .ok (set, next)) : next.settings = grammar.settings := by
  obtain ⟨_, _, _, _, rfl⟩ := eq_of_pop popped
  rfl

theorem modifiers_of_pop {grammar next : Grammar} {key : String} {set : RuleSet}
    (popped : grammar.pop key = .ok (set, next)) : next.modifiers = grammar.modifiers := by
  obtain ⟨_, _, _, _, rfl⟩ := eq_of_pop popped
  rfl

/-- A pop fails on an empty stack only. -/
theorem setsOn_of_pop_error {grammar : Grammar} {key : String} {problem : Problem}
    (failed : grammar.pop key = .error problem) : grammar.setsOn key = [] := by
  cases found : grammar.symbol? key with
  | none => simp only [setsOn, found, Option.map_none, Option.getD_none]
  | some symbol =>
    cases stack : symbol.stack with
    | nil => simp only [setsOn, found, Option.map_some, Option.getD_some, Symbol.sets, Symbol.bare,
        stack, List.map_nil]
    | cons top below => simp only [pop, found, Symbol.pop, stack, reduceCtorEq] at failed

/-- A set that is there can be taken off. -/
theorem exists_pop_of_setsOn {grammar : Grammar} {key : String} {top : RuleSet}
    {rest : List RuleSet} (sets : grammar.setsOn key = top :: rest) :
    ∃ set next, grammar.pop key = .ok (set, next) ∧ next.setsOn key = rest := by
  cases popped : grammar.pop key with
  | error problem =>
    rw [setsOn_of_pop_error popped] at sets
    contradiction
  | ok outcome =>
    have before := setsOn_of_pop popped key
    rw [if_pos rfl, sets] at before
    exact ⟨outcome.1, outcome.2, rfl, (List.cons.inj before).2.symm⟩

/-- A selection among grammars is made from the first that has the symbol, and changes no other. -/
theorem eq_of_selectAmong? {key : String} {path : List String} {rolls : Rolls}
    {subs next : List Grammar} {selection : Symbol.Selection}
    (success : selectAmong? key path rolls subs = some (selection, next)) :
    ∃ before sub after symbol, subs = before ++ sub :: after ∧ sub.symbol? key = some symbol ∧
      selection = symbol.selectUnlogged path rolls ∧
      next = before ++
        { sub with symbols := Keyed.insert key selection.symbol sub.symbols } :: after := by
  induction subs generalizing next with
  | nil => simp only [selectAmong?, reduceCtorEq] at success
  | cons sub rest ih =>
    cases found : sub.symbol? key with
    | some symbol =>
      simp only [selectAmong?, found, Option.some.injEq, Prod.mk.injEq] at success
      obtain ⟨rfl, rfl⟩ := success
      exact ⟨[], sub, rest, symbol, rfl, found, rfl, rfl⟩
    | none =>
      simp only [selectAmong?, found, Option.map_eq_some_iff, Prod.mk.injEq] at success
      obtain ⟨⟨_, others⟩, selects, rfl, rfl⟩ := success
      obtain ⟨before, owner, after, symbol, rfl, owns, same, left⟩ := ih selects
      exact ⟨sub :: before, owner, after, symbol, rfl, owns, same, congrArg (sub :: ·) left⟩

/-- Selecting among subgrammars counts a use in one of them at most. -/
theorem bareSymbol?_selectAmong? {key : String} {path : List String} {rolls : Rolls}
    {subs next : List Grammar} {selection : Symbol.Selection}
    (success : selectAmong? key path rolls subs = some (selection, next)) :
    next.map bareSymbol? = subs.map bareSymbol? := by
  obtain ⟨before, sub, after, symbol, rfl, found, rfl, rfl⟩ := eq_of_selectAmong? success
  simp only [List.map_append, List.map_cons, List.append_cancel_left_eq, List.cons.injEq, and_true]
  funext other
  simp only [bareSymbol?, symbol?_insert]
  split
  · next same => simp only [same, found, Option.map_some, Symbol.bare_selectUnlogged]
  · rfl

variable (grammar : Grammar) (key : String) (origin : Option Place) (path : List String)
  (rolls : Rolls)

/-- What a selection does to the grammar's own symbols: a use is counted and logged. -/
theorem symbol?_select (other : String) :
    (grammar.select key origin path rolls).grammar.symbol? other =
      if other = key then
        (grammar.symbol? key).map fun symbol => (symbol.select origin path rolls).symbol
      else grammar.symbol? other := by
  simp only [select]
  cases found : grammar.symbol? key with
  | some symbol => exact symbol?_insert grammar key other _
  | none =>
    have same : grammar.symbol? other = if other = key then none else grammar.symbol? other := by
      split
      · next same => rw [same, found]
      · rfl
    cases selectAmong? key path rolls grammar.subgrammars <;> exact same

theorem setsOn_select (other : String) :
    (grammar.select key origin path rolls).grammar.setsOn other = grammar.setsOn other := by
  simp only [setsOn, symbol?_select]
  split
  · next same =>
    simp only [same, Option.map_map, Function.comp_def, Symbol.sets_select]
  · rfl

theorem mark?_select (other : String) :
    (grammar.select key origin path rolls).grammar.mark? other = grammar.mark? other := by
  simp only [mark?, symbol?_select]
  split
  · next same =>
    simp only [same, Option.map_map, Function.comp_def, Symbol.dynamic_select]
  · rfl

theorem bareSymbol?_subgrammars_select :
    (grammar.select key origin path rolls).grammar.subgrammars.map bareSymbol? =
      grammar.subgrammars.map bareSymbol? := by
  simp only [select]
  cases found : grammar.symbol? key with
  | some symbol => rfl
  | none =>
    cases selects : selectAmong? key path rolls grammar.subgrammars with
    | none => rfl
    | some outcome => exact bareSymbol?_selectAmong? selects

theorem subgrammars_select_of_alone (alone : grammar.subgrammars = []) :
    (grammar.select key origin path rolls).grammar.subgrammars = [] := by
  simp only [select]
  cases grammar.symbol? key with
  | some symbol => exact alone
  | none =>
    rw [alone]
    exact alone

theorem settings_select :
    (grammar.select key origin path rolls).grammar.settings = grammar.settings := by
  simp only [select]
  split
  · rfl
  · split <;> rfl

theorem modifiers_select :
    (grammar.select key origin path rolls).grammar.modifiers = grammar.modifiers := by
  simp only [select]
  split
  · rfl
  · split <;> rfl

end Grammar

end TextGrammar
