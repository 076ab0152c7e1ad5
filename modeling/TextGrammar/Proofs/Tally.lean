import TextGrammar.Proofs.Histories
import TextGrammar.Proofs.Reached

/-! # Every roll is counted

A roll is drawn to pick an alternative, and the pick is counted in the set that offered it. Nothing
else draws a roll, and nothing but clearing sets a counter back; a set that is taken off a stack
takes its counters with it. So the rolls drawn in a session are the uses counted in it, those in the
sets taken off included, as long as no counter comes to its end and starts over.

The grammar's own symbol logs each selection that is made, whatever it gives. A selection is made
when its conditions have led to a set, so one that an ambiguous tag cuts short before is not logged.
-/

namespace TextGrammar

open Expansion

/-- The uses that the counters of a pool tell of. -/
def Pool.useCount (pool : Pool) : Nat :=
  (pool.uses.map UInt32.toNat).sum

namespace RuleSet

mutual

/-- The uses that the counters of a set tell of, those of its branches included. -/
def useCount : RuleSet → Nat
  | .plain pool => pool.useCount
  | .conditional _ branches pool => pool.useCount + useCountAmong branches

/-- The uses that the counters of branches tell of. -/
def useCountAmong : List (String × RuleSet) → Nat
  | [] => 0
  | (_, set) :: rest => set.useCount + useCountAmong rest

end

end RuleSet

/-- The uses that the counters of the sets on a stack tell of. -/
def Symbol.useCount (symbol : Symbol) : Nat :=
  (symbol.stack.map RuleSet.useCount).sum

namespace Grammar

mutual

/-- The uses that the counters on all stacks tell of, those of subgrammars included. -/
def useCount : Grammar → Nat
  | ⟨symbols, _, subgrammars, _⟩ =>
    (symbols.map fun entry => entry.2.useCount).sum + useCountAmong subgrammars

/-- The uses that the counters of grammars tell of. -/
def useCountAmong : List Grammar → Nat
  | [] => 0
  | grammar :: rest => grammar.useCount + useCountAmong rest

end

theorem useCount_eq (grammar : Grammar) : grammar.useCount =
    (grammar.symbols.map fun entry => entry.2.useCount).sum +
      useCountAmong grammar.subgrammars := by
  cases grammar
  rfl

theorem useCountAmong_append (early late : List Grammar) :
    useCountAmong (early ++ late) = useCountAmong early + useCountAmong late := by
  induction early with
  | nil => exact (Nat.zero_add _).symm
  | cons grammar rest ih => rw [List.cons_append, useCountAmong, useCountAmong, ih, Nat.add_assoc]

end Grammar

/-- One more use is counted, unless a counter at its end starts over: then it wraps once. -/
structure CountsUse (wraps before after : Nat) : Prop where
  once : wraps ≤ 1
  counts : after + wraps * 2 ^ 32 = before + 1

theorem CountsUse.add {wraps before after : Nat} (counts : CountsUse wraps before after)
    (rest : Nat) : CountsUse wraps (before + rest) (after + rest) := by
  obtain ⟨once, counts⟩ := counts
  exact ⟨once, by omega⟩

/-- A selection draws no roll and counts no use, or draws one roll for the rule it gives and counts
one use. -/
inductive Accounted (rolls : Rolls) (before : Nat) : Option String → Rolls → Nat → Prop
  | undrawn (rule : Option String) : Accounted rolls before rule rolls before
  | drawn {rule : String} {wraps after : Nat} (counts : CountsUse wraps before after) :
      Accounted rolls before (some rule) rolls.tail after

theorem Accounted.undrawn_or_drawn {rolls left : Rolls} {before after : Nat} {rule : Option String}
    (accounted : Accounted rolls before rule left after) :
    (left = rolls ∧ after = before) ∨
      ∃ text wraps, rule = some text ∧ left = rolls.tail ∧ CountsUse wraps before after := by
  cases accounted with
  | undrawn => exact .inl ⟨rfl, rfl⟩
  | drawn counts => exact .inr ⟨_, _, rfl, rfl, counts⟩

theorem Accounted.add {rolls left : Rolls} {before after : Nat} {rule : Option String}
    (accounted : Accounted rolls before rule left after) (rest : Nat) :
    Accounted rolls (before + rest) rule left (after + rest) := by
  cases accounted with
  | undrawn => exact .undrawn rule
  | drawn counts => exact .drawn (counts.add rest)

theorem countsUse_modify {uses : List UInt32} {index : Nat} (within : index < uses.length) :
    ∃ wraps, CountsUse wraps (uses.map UInt32.toNat).sum
      ((uses.modify index (· + 1)).map UInt32.toNat).sum := by
  induction uses generalizing index with
  | nil => contradiction
  | cons uses rest ih =>
    cases index with
    | zero =>
      have bound := uses.toNat_lt
      have next : (uses + 1).toNat = (uses.toNat + 1) % 2 ^ 32 := UInt32.toNat_add uses 1
      rw [List.modify_zero_cons, List.map_cons, List.map_cons, List.sum_cons, List.sum_cons, next]
      rcases Nat.lt_or_ge (uses.toNat + 1) (2 ^ 32) with below | ends
      · refine ⟨0, Nat.zero_le 1, ?_⟩
        rw [Nat.mod_eq_of_lt below]
        omega
      · refine ⟨1, Nat.le_refl 1, ?_⟩
        have full : uses.toNat + 1 = 2 ^ 32 := by omega
        rw [full, Nat.mod_self]
        omega
    | succ index =>
      obtain ⟨wraps, counts⟩ := ih (Nat.lt_of_succ_lt_succ within)
      rw [List.modify_succ_cons, List.map_cons, List.map_cons, List.sum_cons, List.sum_cons,
        Nat.add_comm, Nat.add_comm uses.toNat]
      exact ⟨wraps, counts.add uses.toNat⟩

namespace RuleSet

/-- What a set counts besides its pool. -/
theorem useCount_eq (set : RuleSet) :
    set.useCount = set.pool.useCount + useCountAmong set.branches := by
  cases set <;> rfl

/-- Picking from a pool draws a roll and counts a use. -/
theorem countsUse_selectDefault? {set : RuleSet} {rolls : Rolls} {selected : Selected}
    (counted : set.Counted) (selects : set.selectDefault? rolls = some selected) :
    selected.rolls = rolls.tail ∧ ∃ wraps, CountsUse wraps set.useCount selected.set.useCount := by
  obtain ⟨rule, picked, rfl⟩ := Option.map_eq_some_iff.mp selects
  obtain ⟨within, _⟩ := List.getElem?_eq_some_iff.mp picked
  obtain ⟨wraps, counts⟩ := countsUse_modify (Nat.lt_of_lt_of_eq within counted.symm)
  refine ⟨rfl, wraps, ?_⟩
  rw [useCount_eq, useCount_eq, pool_withPool, branches_withPool]
  exact counts.add _

theorem useCountAmong_modify {key : String} {branch : RuleSet} {branches : List (String × RuleSet)}
    (found : branches.lookup key = some branch) (next : RuleSet) :
    ∃ rest, useCountAmong branches = branch.useCount + rest ∧
      useCountAmong (Keyed.modify key (fun _ => next) branches) = next.useCount + rest := by
  induction branches with
  | nil => contradiction
  | cons entry others ih =>
    rcases entry with ⟨other, set⟩
    by_cases same : other = key
    · subst same
      rw [List.lookup_cons_self, Option.some.injEq] at found
      subst found
      exact ⟨useCountAmong others, rfl, by rw [Keyed.modify, if_pos rfl, useCountAmong]⟩
    · rw [List.lookup_cons, beq_false_of_ne (Ne.symm same)] at found
      obtain ⟨rest, before, after⟩ := ih found
      refine ⟨set.useCount + rest, ?_, ?_⟩
      · rw [useCountAmong, before]
        omega
      · rw [Keyed.modify, if_neg same, useCountAmong, after]
        omega

/-- Selecting from a set draws a roll and counts a use, if a rule is found at all. -/
theorem countsUse_select? {set : RuleSet} {rolls : Rolls} {path : List String}
    {selected : Selected} (counted : Throughout Counted set)
    (selects : set.select? rolls path = some selected) :
    selected.rolls = rolls.tail ∧ ∃ wraps, CountsUse wraps set.useCount selected.set.useCount := by
  induction path generalizing set selected with
  | nil => exact countsUse_selectDefault? counted.here selects
  | cons key path ih =>
    simp only [select?] at selects
    split at selects
    · next inner inside =>
      cases selects
      obtain ⟨branch, found, inside⟩ := Option.bind_eq_some_iff.mp inside
      obtain ⟨rolls, wraps, counts⟩ := ih (counted.branch found) inside
      obtain ⟨rest, before, after⟩ := useCountAmong_modify found inner.set
      refine ⟨rolls, wraps, ?_⟩
      rw [useCount_eq, useCount_eq, pool_withBranch, branches_withBranch, before, after]
      rw [Nat.add_left_comm, Nat.add_left_comm _ inner.set.useCount]
      exact counts.add _
    · exact countsUse_selectDefault? counted.here selects

end RuleSet

theorem Symbol.accounted_selectUnlogged {symbol : Symbol}
    (counted : symbol.EachSet (RuleSet.Throughout RuleSet.Counted)) (path : List String)
    (rolls : Rolls) :
    Accounted rolls symbol.useCount (symbol.selectUnlogged path rolls).rule
      (symbol.selectUnlogged path rolls).rolls
      (symbol.selectUnlogged path rolls).symbol.useCount := by
  cases stack : symbol.stack with
  | nil => simpa only [selectUnlogged, stack] using .undrawn _
  | cons top below =>
    cases selects : top.select? rolls path with
    | none => simpa only [selectUnlogged, stack, selects] using .undrawn _
    | some selected =>
      have first := counted top (stack ▸ List.mem_cons_of_mem _ List.mem_cons_self)
      obtain ⟨drawn, wraps, counts⟩ := RuleSet.countsUse_select? first selects
      simp only [selectUnlogged, stack, selects, useCount, List.map_cons, List.sum_cons, drawn]
      exact .drawn (counts.add _)

namespace Grammar

variable {grammar next : Grammar}

/-- Where a symbol is changed in its place, only its own counters count otherwise. -/
theorem useCount_insert {key : String} {previous : Symbol}
    (ascending : Keyed.Ascending grammar.symbols) (found : grammar.symbol? key = some previous)
    (symbol : Symbol) :
    ∃ rest, grammar.useCount = previous.useCount + rest ∧
      { grammar with symbols := Keyed.insert key symbol grammar.symbols }.useCount =
        symbol.useCount + rest := by
  obtain ⟨before, after, split, inserted⟩ := Keyed.insert_of_lookup ascending found symbol
  refine ⟨(before.map fun entry => entry.2.useCount).sum +
    (after.map fun entry => entry.2.useCount).sum + useCountAmong grammar.subgrammars, ?_, ?_⟩
  · rw [useCount_eq, split, List.map_append, List.map_cons, List.sum_append, List.sum_cons]
    dsimp only
    omega
  · rw [useCount_eq, inserted, List.map_append, List.map_cons, List.sum_append, List.sum_cons]
    dsimp only
    omega

theorem accounted_insert {key : String} {previous symbol : Symbol} {rolls left : Rolls}
    {rule : Option String} (ascending : Keyed.Ascending grammar.symbols)
    (found : grammar.symbol? key = some previous)
    (accounted : Accounted rolls previous.useCount rule left symbol.useCount) :
    Accounted rolls grammar.useCount rule left
      { grammar with symbols := Keyed.insert key symbol grammar.symbols }.useCount := by
  obtain ⟨rest, before, after⟩ := useCount_insert ascending found symbol
  rw [before, after]
  exact accounted.add rest

/-- A push adds a set whose counters are at zero. -/
theorem useCount_push (ordered : grammar.Ordered) (key : String) (alternatives : List String) :
    (grammar.push key alternatives).useCount = grammar.useCount := by
  have unused : (grammar.pushedSet alternatives).useCount = 0 := by
    change ((alternatives.map fun _ => (0 : UInt32)).map UInt32.toNat).sum = 0
    rw [List.map_map]
    exact List.sum_eq_zero (List.forall_mem_map.mpr fun _ _ => rfl)
  rw [push]
  cases found : grammar.symbol? key with
  | some symbol =>
    obtain ⟨rest, before, after⟩ :=
      useCount_insert ordered.symbols found (symbol.push (grammar.pushedSet alternatives))
    have same : (symbol.push (grammar.pushedSet alternatives)).useCount = symbol.useCount := by
      change (grammar.pushedSet alternatives).useCount + symbol.useCount = _
      omega
    exact after.trans ((congrArg (· + rest) same).trans before.symm)
  | none =>
    obtain ⟨before, after, split, inserted⟩ :=
      Keyed.insert_of_lookup_none found (Symbol.pushed key (grammar.pushedSet alternatives))
    have none : (Symbol.pushed key (grammar.pushedSet alternatives)).useCount = 0 := by
      change (grammar.pushedSet alternatives).useCount + 0 = 0
      omega
    rw [useCount_eq, useCount_eq]
    dsimp only
    rw [inserted, split]
    simp only [List.map_append, List.map_cons, List.sum_append, List.sum_cons, none]
    omega

/-- A set that is taken off takes its counters with it. -/
theorem useCount_of_pop {key : String} {set : RuleSet} (ordered : grammar.Ordered)
    (popped : grammar.pop key = .ok (set, next)) :
    next.useCount + set.useCount = grammar.useCount := by
  obtain ⟨symbol, below, found, stack, rfl⟩ := eq_of_pop popped
  obtain ⟨rest, before, after⟩ :=
    useCount_insert ordered.symbols found { symbol with stack := below }
  have parts : symbol.useCount = set.useCount + (below.map RuleSet.useCount).sum := by
    rw [Symbol.useCount, stack, List.map_cons, List.sum_cons]
  have left : { symbol with stack := below }.useCount = (below.map RuleSet.useCount).sum := rfl
  omega

theorem accounted_selectAmong? {key : String} {path : List String} {rolls : Rolls}
    {subs next : List Grammar} {selection : Symbol.Selection}
    (ordered : ∀ sub ∈ subs, Keyed.Ascending sub.symbols)
    (counted : ∀ sub ∈ subs, ∀ entry ∈ sub.symbols,
      entry.2.EachSet (RuleSet.Throughout RuleSet.Counted))
    (success : selectAmong? key path rolls subs = some (selection, next)) :
    Accounted rolls (useCountAmong subs) selection.rule selection.rolls (useCountAmong next) := by
  obtain ⟨before, sub, after, symbol, rfl, found, rfl, rfl⟩ := eq_of_selectAmong? success
  obtain ⟨ascending, _⟩ := List.forall_mem_cons.mp (List.forall_mem_append.mp ordered).2
  obtain ⟨sets, _⟩ := List.forall_mem_cons.mp (List.forall_mem_append.mp counted).2
  have accounted := Symbol.accounted_selectUnlogged (EachSet.symbol sets found) path rolls
  have total (owner : Grammar) : useCountAmong (before ++ owner :: after) =
      owner.useCount + (useCountAmong before + useCountAmong after) := by
    rw [useCountAmong_append, useCountAmong]
    omega
  rw [total, total]
  exact (accounted_insert ascending found accounted).add _

theorem accounted_select (ordered : grammar.Ordered)
    (counted : grammar.EachSet (RuleSet.Throughout RuleSet.Counted)) (key : String)
    (origin : Option Place) (path : List String) (rolls : Rolls) :
    Accounted rolls grammar.useCount (grammar.select key origin path rolls).rule
      (grammar.select key origin path rolls).rolls
      (grammar.select key origin path rolls).grammar.useCount := by
  rw [select]
  cases found : grammar.symbol? key with
  | some symbol =>
    have sets : symbol.EachSet (RuleSet.Throughout RuleSet.Counted) :=
      EachSet.symbol counted.own found
    have logged : { symbol with log := origin :: symbol.log }.EachSet
        (RuleSet.Throughout RuleSet.Counted) := sets
    exact accounted_insert ordered.symbols found (Symbol.accounted_selectUnlogged logged path rolls)
  | none =>
    cases selects : selectAmong? key path rolls grammar.subgrammars with
    | none => exact .undrawn _
    | some outcome =>
      obtain ⟨_, ascending⟩ := List.forall_mem_cons.mp ordered
      obtain ⟨_, each⟩ := List.forall_mem_cons.mp counted
      have accounted := (accounted_selectAmong? ascending each selects).add
        (grammar.symbols.map fun entry => entry.2.useCount).sum
      rw [useCount_eq, useCount_eq, Nat.add_comm]
      dsimp only
      rw [Nat.add_comm _ (useCountAmong outcome.2)]
      exact accounted

end Grammar

/-- The uses counted in a set that an event takes off a stack. -/
def Event.taken : Event → Nat
  | .popped _ (some set) | .released _ (some set) => set.useCount
  | _ => 0

/-- One step of a session, with what it does to the rolls and the counters and the number of
counters that wrap in it. A selection that gives a rule may draw one roll for it, and counts one use
if it does. No other step draws a roll, and none changes what was counted, but that a set that is
taken off a stack takes its counters with it. -/
inductive Tally : Session → Event → Nat → Session → Prop
  | still {source target : Expansion} {event : Event} (step : Step source event target)
      (undrawn : target.rolls = source.rolls)
      (counts : target.grammar.useCount + event.taken = source.grammar.useCount) :
      Tally source.session event 0 target.session
  | drawn {source target : Expansion} {key rule : String} {wraps : Nat}
      (step : Step source (.selected key (some rule)) target)
      (drawn : target.rolls = source.rolls.tail)
      (counts : CountsUse wraps source.grammar.useCount target.grammar.useCount) :
      Tally source.session (.selected key (some rule)) wraps target.session

/-- Some steps of a session, one after the other, with the number of counters that wrap in them. -/
inductive Tallied : Session → List Event → Nat → Session → Prop
  | done (session : Session) : Tallied session [] 0 session
  | cons {source middle target : Session} {event : Event} {events : List Event} {wraps more : Nat}
      (first : Tally source event wraps middle) (rest : Tallied middle events more target) :
      Tallied source (event :: events) (wraps + more) target

/-- The uses counted in the sets that events take off. -/
def taken (events : List Event) : Nat :=
  (events.map Event.taken).sum

/-- What was drawn and what was counted go up together. -/
theorem Tallied.balance {source target : Session} {events : List Event} {wraps : Nat}
    (tallied : Tallied source events wraps target) :
    target.rolls.stream = source.rolls.stream ∧
      target.grammar.useCount + taken events + wraps * 2 ^ 32 + source.rolls.drawn =
        source.grammar.useCount + target.rolls.drawn := by
  induction tallied with
  | done session => exact ⟨rfl, rfl⟩
  | cons first _ ih =>
    obtain ⟨stream, balance⟩ := ih
    rw [taken, List.map_cons, List.sum_cons]
    change _ ∧ _ + (_ + taken _) + _ + _ = _
    cases first with
    | still _ undrawn counts =>
      simp only [Expansion.session, undrawn] at stream balance ⊢
      exact ⟨stream, by omega⟩
    | drawn _ drawn counts =>
      obtain ⟨_, counts⟩ := counts
      simp only [Expansion.session, drawn, Rolls.tail, Event.taken] at stream balance ⊢
      exact ⟨stream, by omega⟩

theorem Expansion.Step.tally {source target : Expansion} {event : Event}
    (ordered : source.grammar.Ordered)
    (counted : source.grammar.EachSet (RuleSet.Throughout RuleSet.Counted))
    (step : Step source event target) :
    ∃ wraps, Tally source.session event wraps target.session := by
  cases step with
  | pushed site key alternatives =>
    exact ⟨0, .still (.pushed source site key alternatives) rfl
      (Grammar.useCount_push ordered key alternatives)⟩
  | @took event key set grammar kind popped =>
    have counts := Grammar.useCount_of_pop ordered popped
    refine ⟨0, .still (.took kind popped) rfl ?_⟩
    rcases kind with rfl | rfl <;> exact counts
  | missed kind failed =>
    refine ⟨0, .still (.missed kind failed) rfl ?_⟩
    rcases kind with rfl | rfl <;> rfl
  | selected key origin path =>
    have step := Step.selected source key origin path
    have accounted := Grammar.accounted_select ordered counted key origin path source.rolls
    rcases accounted.undrawn_or_drawn with ⟨undrawn, same⟩ | ⟨text, wraps, given, drawn, counts⟩
    · exact ⟨0, .still step undrawn same⟩
    · rw [given] at step ⊢
      exact ⟨wraps, .drawn step drawn counts⟩
  | noted problem => exact ⟨0, .still (.noted source problem) rfl rfl⟩
  | activated site action => exact ⟨0, .still (.activated source site action) rfl rfl⟩
  | entered raw going room => exact ⟨0, .still (.entered raw going room) rfl rfl⟩
  | refused fresh full => exact ⟨0, .still (.refused fresh full) rfl rfl⟩
  | left => exact ⟨0, .still (.left source) rfl rfl⟩

theorem Session.Chain.tallied {source target : Session} {events : List Event}
    (chain : source.Chain events target) (ordered : source.grammar.Ordered)
    (counted : source.grammar.EachSet (RuleSet.Throughout RuleSet.Counted)) :
    ∃ wraps, Tallied source events wraps target := by
  induction chain with
  | done session => exact ⟨0, .done session⟩
  | @cons source middle event events last step _ ih =>
    obtain ⟨wraps, first⟩ := step.tally ordered counted
    have stillOrdered : middle.grammar.Ordered := (step.renews ordered).2
    have stillCounted := (kept_eachSet RuleSet.lasting_counted).step step counted
    obtain ⟨more, rest⟩ := ih stillOrdered stillCounted
    exact ⟨wraps + more, .cons first rest⟩

/-- How a selection ends, from where its conditions led. If they led to a set, the selection is
made: one event tells of it, whatever it gives, and the grammar's own symbol, if there is one, logs
it once. If an ambiguous tag ended them, it is not made: nothing more happens. -/
inductive SelectionEnds (key : String) (origin : Option Place) :
    Report (List String) × Expansion → Report (Option String) × Expansion → Prop
  | made {path : List String} {rule : Option String} {problems others : List Problem}
      {ready after : Expansion}
      (told : after.events = ready.events ++ .selected key rule :: others.map .noted)
      (logged : after.grammar.logOn key =
        (if (ready.grammar.symbol? key).isSome then [origin] else []) ++ ready.grammar.logOn key) :
      SelectionEnds key origin (⟨.ok path, problems⟩, ready) (⟨.ok rule, problems ++ others⟩, after)
  | cutShort {tag : AmbiguousTag} {problems : List Problem} {ready : Expansion} :
      SelectionEnds key origin (⟨.error tag, problems⟩, ready) (⟨.error tag, problems⟩, ready)

theorem Engine.selectionEnds (inner : Expander) (key : String) (origin : Option Place)
    (state : Expansion) :
    SelectionEnds key origin (conditionPath inner key state.limit [] state)
      (selectRule inner key origin state) := by
  rw [selectRule_apply, Run.bind_apply]
  rcases conditionPath inner key state.limit [] state with ⟨⟨_ | path, problems⟩, ready⟩
  · exact .cutShort
  · refine .made (events_record _ _) ?_
    have logs := ready.grammar.logOn_select key key origin path ready.rolls
    simp only [eq_self, true_and] at logs
    exact logs

/-- Whatever is done with a grammar that can be reached, short of clearing it, and however it ends:
every roll is drawn by a selection that counts a use, and no other step draws one. So the rolls
drawn are the uses counted meanwhile, in all sets on all stacks, in branches and subgrammars too,
and in the sets that were taken off, as they were then; a counter that wraps is short by its range,
and as long as none does, the sum is exact. The log of each symbol of the grammar itself grows by
the selections made that are asked of it, whatever comes of them, and no log of a subgrammar grows.
A selection is made unless an ambiguous tag ends its conditions. -/
theorem rolls_are_counted {session : Session} (reached : session.grammar.Reached)
    {operations : List Operation} (lasting : operations.any Operation.clears = false) :
    let events := Operation.eventsAll session operations
    let after := (Operation.runAll session operations).2
    (∃ wraps, Tallied session events wraps after ∧
      after.grammar.useCount + taken events + wraps * 2 ^ 32 + session.rolls.drawn =
        session.grammar.useCount + after.rolls.drawn) ∧
      after.rolls.stream = session.rolls.stream ∧
      (∀ key, ∃ added, after.grammar.logOn key = added ++ session.grammar.logOn key ∧
        added.length = asked key (session.grammar.symbol? key).isSome events) ∧
      after.grammar.subgrammars.map Grammar.logOn =
        session.grammar.subgrammars.map Grammar.logOn ∧
      after.grammar.subgrammars.map (·.subgrammars) =
        session.grammar.subgrammars.map (·.subgrammars) ∧
      ∀ (key : String) (origin : Option Place) (state : Expansion),
        SelectionEnds key origin (Engine.conditionPath expandNode key state.limit [] state)
          (Engine.selectRule expandNode key origin state) := by
  intro events after
  have chain : session.Chain events after := chain_operations lasting session
  obtain ⟨wraps, tallied⟩ := chain.tallied reached.ordered reached.counted
  obtain ⟨stream, balance⟩ := tallied.balance
  obtain ⟨logs, below⟩ := chain.subgrammars_untouched
  exact ⟨⟨wraps, tallied, balance⟩, stream, chain.logOn, logs, below,
    Engine.selectionEnds expandNode⟩

/-- A session with the forecast. -/
def forecastSession : Session :=
  ⟨forecast, { stream := fun _ => default }⟩

/-- Two rolls are drawn for the walk, one in a subgrammar for its condition; one of the two uses is
counted in the set that is popped in the end. -/
theorem rolls_are_counted_forecast :
    forecastSession.grammar.Reached ∧ forecastUses.any Operation.clears = false ∧
      Tallied forecastSession (Operation.eventsAll forecastSession forecastUses) 0
        (Operation.runAll forecastSession forecastUses).2 ∧
      (Operation.runAll forecastSession forecastUses).2.rolls.drawn = 2 ∧
      (Operation.runAll forecastSession forecastUses).2.grammar.useCount = 1 ∧
      taken (Operation.eventsAll forecastSession forecastUses) = 1 := by
  have reached : forecastSession.grammar.Reached := reached_forecast
  have lasting : forecastUses.any Operation.clears = false := rfl
  have drawn : (Operation.runAll forecastSession forecastUses).2.rolls.drawn = 2 := by
    simp only [forecastSession]
    cbv
  have counted : (Operation.runAll forecastSession forecastUses).2.grammar.useCount = 1 := by
    simp only [forecastSession]
    cbv
  have off : taken (Operation.eventsAll forecastSession forecastUses) = 1 := by
    simp only [forecastSession]
    cbv
  have unused : forecastSession.grammar.useCount = 0 := by
    simp only [forecastSession]
    cbv
  have start : forecastSession.rolls.drawn = 0 := by
    simp only [forecastSession]
  have told := (rolls_are_counted reached lasting).1
  obtain ⟨wraps, tallied, balance⟩ := told
  rw [drawn, counted, off, unused, start] at balance
  obtain rfl : wraps = 0 := by omega
  exact ⟨reached, lasting, tallied, drawn, counted, off⟩

/-- A fork in the road that nobody can read. -/
def unreadableFork : Grammar :=
  .ofWritten (Keyed.ofEntries [("road", .conditional "#left[or]right#" [] ["straight on"])]) {}

theorem reached_unreadableFork : unreadableFork.Reached := by
  refine .built (.ofEntries _ _) (Grammar.eachSet_ofWritten ?_)
  exact List.forall_mem_singleton.mpr (.intro .nil (List.forall_mem_nil _))

/-- Not every selection that is asked of a symbol is logged: its conditions may fail first. -/
theorem selection_cut_short_is_not_logged :
    ¬ ∀ (session : Session) (key : String), session.grammar.Reached →
      (session.grammar.symbol? key).isSome →
      (session.grammar.logOn key).length <
        (((Operation.selectRule key).run session).2.grammar.logOn key).length := by
  intro claim
  have logs := claim ⟨unreadableFork, { stream := fun _ => default }⟩ "road"
    reached_unreadableFork (by cbv)
  have before : unreadableFork.logOn "road" = [] := by cbv
  have after : ((Operation.selectRule "road").run
      ⟨unreadableFork, { stream := fun _ => default }⟩).2.grammar.logOn "road" = [] := by cbv
  rw [before, after] at logs
  exact absurd logs (Nat.lt_irrefl 0)

end TextGrammar
