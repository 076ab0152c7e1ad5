import TextGrammar.Proofs.EachSymbol
import TextGrammar.Proofs.Views

/-! # Grammars that can be reached

A grammar is reached by building it and by whatever is then done with it: it is used, another is
laid over it, subgrammars and modifiers are added. Some things hold of every rule set that stands
anywhere in it, at every level of branches: those that hold of pushed sets, and that neither
counting a use nor clearing takes from a set. There is a counter for each alternative, and the
branches are a map; and as long as all sets have the falloff of the settings, they keep it.
-/

namespace TextGrammar

open Expansion

namespace Keyed

variable {α : Type}

theorem keys_modify (key : String) (change : α → α) (map : List (String × α)) :
    keys (modify key change map) = keys map := by
  induction map with
  | nil => rfl
  | cons entry rest ih =>
    rw [modify]
    split
    · rfl
    · exact congrArg (entry.1 :: ·) ih

theorem ascending_iff_keys {map : List (String × α)} :
    Ascending map ↔ (keys map).Pairwise (· < ·) :=
  List.pairwise_map.symm

/-- Changing a value changes no other entry. -/
theorem mem_modify {key : String} {change : α → α} {map : List (String × α)} {entry : String × α}
    (member : entry ∈ modify key change map) :
    (∃ value, (key, value) ∈ map ∧ entry = (key, change value)) ∨ entry ∈ map := by
  induction map with
  | nil => contradiction
  | cons first rest ih =>
    rcases first with ⟨other, held⟩
    rw [modify] at member
    split at member
    · next same =>
      subst same
      rcases List.mem_cons.mp member with rfl | member
      · exact .inl ⟨held, List.mem_cons_self, rfl⟩
      · exact .inr (List.mem_cons_of_mem _ member)
    · rcases List.mem_cons.mp member with rfl | member
      · exact .inr List.mem_cons_self
      · rcases ih member with ⟨value, known, rfl⟩ | known
        · exact .inl ⟨value, List.mem_cons_of_mem _ known, rfl⟩
        · exact .inr (List.mem_cons_of_mem _ known)

end Keyed

namespace RuleSet

/-- Something holds of a set and, at every level, of the sets in its branches. -/
inductive Throughout (holds : RuleSet → Prop) : RuleSet → Prop
  | intro {set : RuleSet} (here : holds set)
      (inward : ∀ entry ∈ set.branches, Throughout holds entry.2) : Throughout holds set

/-- What holds of pushed sets, and what no use of a set ends. -/
structure Lasting (holds : RuleSet → Prop) : Prop where
  pushed (falloff : Float) (alternatives : List String) :
    holds (.ofAlternatives falloff alternatives)
  used {set : RuleSet} (index : Nat) (still : holds set) :
    holds (set.withPool (set.pool.countUse index))
  withBranch {set : RuleSet} (key : String) (branch : RuleSet) (still : holds set) :
    holds (set.withBranch key branch)
  clear {set : RuleSet} (still : holds set) : holds set.clear

/-- There is a counter for each alternative. -/
def Counted (set : RuleSet) : Prop :=
  set.pool.uses.length = set.pool.alternatives.length

/-- The branches are a map. -/
def Mapped (set : RuleSet) : Prop :=
  Keyed.Ascending set.branches

theorem pool_withPool (pool : Pool) (set : RuleSet) : (set.withPool pool).pool = pool := by
  cases set <;> rfl

theorem branches_withPool (pool : Pool) (set : RuleSet) :
    (set.withPool pool).branches = set.branches := by
  cases set <;> rfl

theorem pool_withBranch (key : String) (branch set : RuleSet) :
    (set.withBranch key branch).pool = set.pool := by
  cases set <;> rfl

theorem branches_withBranch (key : String) (branch set : RuleSet) :
    (set.withBranch key branch).branches = Keyed.modify key (fun _ => branch) set.branches := by
  cases set <;> rfl

theorem pool_clear (set : RuleSet) : set.clear.pool = set.pool.clear := by
  cases set <;> rfl

theorem branches_clear (set : RuleSet) :
    set.clear.branches = set.branches.map fun entry => (entry.1, entry.2.clear) := by
  cases set with
  | plain pool => rfl
  | conditional condition branches pool => exact clearBranches_eq_map branches

theorem lasting_counted : Lasting Counted where
  pushed _ alternatives := List.length_map _
  used index still := by
    rw [Counted, pool_withPool]
    exact (List.length_modify _ _ _).trans still
  withBranch key branch still := by
    rw [Counted, pool_withBranch]
    exact still
  clear still := by
    rw [Counted, pool_clear]
    exact (List.length_map _).trans still

theorem lasting_mapped : Lasting Mapped where
  pushed _ _ := .nil
  used _ still := by
    rw [Mapped, branches_withPool]
    exact still
  withBranch key branch still := by
    rw [Mapped, branches_withBranch, Keyed.ascending_iff_keys, Keyed.keys_modify]
    exact Keyed.ascending_iff_keys.mp still
  clear still := by
    rw [Mapped, branches_clear]
    exact List.pairwise_map.mpr still

mutual

/-- No pool of a set as written was drawn from. -/
theorem fresh_ofWritten (falloff : Float) : (rules : WrittenRules) →
    Throughout (fun set => set.pool = .fresh falloff set.defaults) (ofWritten falloff rules)
  | .one _ => .intro rfl (List.forall_mem_nil _)
  | .many _ => .intro rfl (List.forall_mem_nil _)
  | .conditional _ branches _ => .intro rfl (fresh_branchesOfWritten falloff branches)

theorem fresh_branchesOfWritten (falloff : Float) : (branches : List (String × WrittenRules)) →
    ∀ entry ∈ branchesOfWritten falloff branches,
      Throughout (fun set => set.pool = .fresh falloff set.defaults) entry.2
  | [] => List.forall_mem_nil _
  | (_, rules) :: rest => List.forall_mem_cons.mpr
    ⟨fresh_ofWritten falloff rules, fresh_branchesOfWritten falloff rest⟩

end

namespace Throughout

variable {holds : RuleSet → Prop} {set : RuleSet}

theorem here (throughout : Throughout holds set) : holds set := by
  cases throughout
  assumption

theorem inward (throughout : Throughout holds set) :
    ∀ entry ∈ set.branches, Throughout holds entry.2 := by
  cases throughout
  assumption

theorem mono {weaker : RuleSet → Prop} (throughout : Throughout holds set)
    (weakens : ∀ set, holds set → weaker set) : Throughout weaker set := by
  induction throughout with
  | intro here _ ih => exact .intro (weakens _ here) ih

theorem branch {key : String} {branch : RuleSet} (throughout : Throughout holds set)
    (found : set.branch? key = some branch) : Throughout holds branch :=
  throughout.inward (key, branch) (Keyed.mem_of_lookup found)

variable (lasting : Lasting holds)
include lasting

theorem clear (throughout : Throughout holds set) : Throughout holds set.clear := by
  induction throughout with
  | @intro set here inward ih =>
    refine .intro (lasting.clear here) ?_
    rw [branches_clear]
    exact List.forall_mem_map.mpr ih

theorem selectDefault? {rolls : Rolls} {selected : Selected} (throughout : Throughout holds set)
    (selects : set.selectDefault? rolls = some selected) : Throughout holds selected.set := by
  obtain ⟨_, _, rfl⟩ := Option.map_eq_some_iff.mp selects
  refine .intro (lasting.used _ throughout.here) ?_
  rw [branches_withPool]
  exact throughout.inward

/-- Selecting from a set takes it from no set. -/
theorem select? {rolls : Rolls} {path : List String} {selected : Selected}
    (throughout : Throughout holds set) (selects : set.select? rolls path = some selected) :
    Throughout holds selected.set := by
  induction path generalizing set selected with
  | nil => exact throughout.selectDefault? lasting selects
  | cons key rest ih =>
    simp only [RuleSet.select?] at selects
    split at selects
    · next inner inside =>
      cases selects
      obtain ⟨branch, found, inside⟩ := Option.bind_eq_some_iff.mp inside
      refine .intro (lasting.withBranch key inner.set throughout.here) ?_
      rw [branches_withBranch]
      intro entry member
      rcases Keyed.mem_modify member with ⟨_, _, rfl⟩ | known
      · exact ih (throughout.branch found) inside
      · exact throughout.inward entry known
    · exact throughout.selectDefault? lasting selects

end Throughout

/-- A set as written has a counter for each alternative. -/
theorem counted_ofWritten (falloff : Float) (rules : WrittenRules) :
    Throughout Counted (ofWritten falloff rules) :=
  (fresh_ofWritten falloff rules).mono fun set fresh => by
    rw [Counted, fresh]
    exact List.length_map _

/-- Written rules make a set of one falloff. -/
theorem even_ofWritten (falloff : Float) (rules : WrittenRules) :
    Throughout (·.pool.falloff = falloff) (ofWritten falloff rules) :=
  (fresh_ofWritten falloff rules).mono fun set fresh => by
    rw [fresh]
    rfl

/-- What does not depend on the counters holds of a set if it holds of one that differs from it in
the counters alone. -/
theorem Throughout.of_clear_eq {holds : RuleSet → Prop} {set other : RuleSet}
    (blind : ∀ {set other : RuleSet}, set.clear = other.clear → holds set → holds other)
    (throughout : Throughout holds set) (same : set.clear = other.clear) :
    Throughout holds other := by
  induction throughout generalizing other with
  | @intro set here _ ih =>
    refine .intro (blind same here) fun entry member => ?_
    have branches := congrArg RuleSet.branches same
    rw [branches_clear, branches_clear] at branches
    have cleared : (entry.1, entry.2.clear) ∈ set.branches.map fun entry =>
        (entry.1, entry.2.clear) := branches ▸ List.mem_map_of_mem member
    obtain ⟨branch, known, alike⟩ := List.mem_map.mp cleared
    exact ih branch known (congrArg Prod.snd alike)

theorem falloff_of_clear_eq {falloff : Float} {set other : RuleSet}
    (same : set.clear = other.clear) (even : set.pool.falloff = falloff) :
    other.pool.falloff = falloff := by
  have pools := congrArg RuleSet.pool same
  rw [pool_clear, pool_clear] at pools
  exact (congrArg Pool.falloff pools).symm.trans even

end RuleSet

namespace Symbol

/-- Something holds of every set of a symbol. -/
def EachSet (holds : RuleSet → Prop) (symbol : Symbol) : Prop :=
  ∀ set ∈ symbol.base :: symbol.stack, holds set

theorem eachSet_declared {holds : RuleSet → Prop} {base : RuleSet} (fits : holds base)
    (key : String) : (declared key base).EachSet holds :=
  List.forall_mem_cons.mpr ⟨fits, List.forall_mem_singleton.mpr fits⟩

namespace EachSet

variable {holds : RuleSet → Prop} {symbol : Symbol}

theorem push {set : RuleSet} (each : symbol.EachSet holds) (fits : holds set) :
    (symbol.push set).EachSet holds := by
  obtain ⟨base, stack⟩ := List.forall_mem_cons.mp each
  exact List.forall_mem_cons.mpr ⟨base, List.forall_mem_cons.mpr ⟨fits, stack⟩⟩

theorem drop (each : symbol.EachSet holds) :
    { symbol with stack := symbol.stack.tail }.EachSet holds := by
  obtain ⟨base, stack⟩ := List.forall_mem_cons.mp each
  exact List.forall_mem_cons.mpr ⟨base, fun set member => stack set (List.mem_of_mem_tail member)⟩

variable (lasting : RuleSet.Lasting holds)
include lasting

theorem clear (each : symbol.EachSet (RuleSet.Throughout holds)) :
    symbol.clear.EachSet (RuleSet.Throughout holds) :=
  eachSet_declared ((each _ List.mem_cons_self).clear lasting) symbol.key

theorem selectUnlogged (each : symbol.EachSet (RuleSet.Throughout holds)) (path : List String)
    (rolls : Rolls) :
    (symbol.selectUnlogged path rolls).symbol.EachSet (RuleSet.Throughout holds) := by
  cases stack : symbol.stack with
  | nil => simpa only [Symbol.selectUnlogged, stack] using each
  | cons top below =>
    cases selects : top.select? rolls path with
    | none => simpa only [Symbol.selectUnlogged, stack, selects] using each
    | some selected =>
      simp only [Symbol.selectUnlogged, stack, selects]
      rw [EachSet, stack, List.forall_mem_cons, List.forall_mem_cons] at each
      obtain ⟨base, first, rest⟩ := each
      have counted := first.select? lasting selects
      exact List.forall_mem_cons.mpr ⟨base, List.forall_mem_cons.mpr ⟨counted, rest⟩⟩

end EachSet

/-- Pushed sets have the falloff of the settings, and no use of a set changes it. -/
theorem lasting_even : Lasting fun falloff _ symbol =>
    symbol.EachSet (RuleSet.Throughout (·.pool.falloff = falloff)) where
  pushed _ key _ := eachSet_declared (.intro rfl (List.forall_mem_nil _)) key
  push still _ := still.push (.intro rfl (List.forall_mem_nil _))
  drop still := still.drop
  log still _ := still
  select {falloff key symbol} still path rolls := by
    have bare := symbol.bare_selectUnlogged path rolls
    generalize (symbol.selectUnlogged path rolls).symbol = next at bare
    have base : next.base = symbol.base := (congrArg Symbol.base bare :)
    have stack : next.stack.map RuleSet.clear = symbol.stack.map RuleSet.clear :=
      (congrArg Symbol.stack bare :)
    obtain ⟨declared, held⟩ := List.forall_mem_cons.mp still
    refine List.forall_mem_cons.mpr ⟨base ▸ declared, fun set member => ?_⟩
    obtain ⟨before, known, same⟩ := List.mem_map.mp (stack ▸ List.mem_map_of_mem member)
    exact (held before known).of_clear_eq RuleSet.falloff_of_clear_eq same
  clear {falloff key symbol} still := by
    have same := symbol.base.clear_clear.symm
    have declared := still symbol.base List.mem_cons_self
    exact eachSet_declared (declared.of_clear_eq RuleSet.falloff_of_clear_eq same) symbol.key

end Symbol

namespace Grammar

/-- Something holds of every set that a selection could come to read, in the grammar or in a
subgrammar. -/
def EachSet (holds : RuleSet → Prop) (grammar : Grammar) : Prop :=
  ∀ owner ∈ grammar :: grammar.subgrammars, ∀ entry ∈ owner.symbols, entry.2.EachSet holds

section

variable {holds : RuleSet → Prop} {grammar : Grammar}

theorem EachSet.own (each : grammar.EachSet holds) :
    ∀ entry ∈ grammar.symbols, entry.2.EachSet holds :=
  each grammar List.mem_cons_self

theorem EachSet.symbol {key : String} {symbol : Symbol}
    (each : ∀ entry ∈ grammar.symbols, entry.2.EachSet holds)
    (found : grammar.symbol? key = some symbol) : symbol.EachSet holds :=
  each (key, symbol) (Keyed.mem_of_lookup found)

end

end Grammar

/-- What lasts in a set, lasts in a symbol. -/
theorem RuleSet.Lasting.symbol {holds : RuleSet → Prop} (lasting : RuleSet.Lasting holds) :
    Symbol.Lasting fun _ _ symbol => symbol.EachSet (RuleSet.Throughout holds) where
  pushed falloff key alternatives :=
    have throughout : (RuleSet.ofAlternatives falloff alternatives).Throughout holds :=
      .intro (lasting.pushed falloff alternatives) (List.forall_mem_nil _)
    Symbol.eachSet_declared throughout key
  push still alternatives :=
    still.push (.intro (lasting.pushed _ alternatives) (List.forall_mem_nil _))
  drop still := still.drop
  log still _ := still
  select still path rolls := still.selectUnlogged lasting path rolls
  clear still := still.clear lasting

/-- What is lasting, holds of every set of a grammar in use if it did at first. -/
theorem kept_eachSet {holds : RuleSet → Prop} (lasting : RuleSet.Lasting holds) :
    Kept fun grammar next => grammar.EachSet (RuleSet.Throughout holds) →
      next.EachSet (RuleSet.Throughout holds) :=
  lasting.symbol.kept

namespace Grammar

/-- A grammar that can be reached: it was built from rules whose branches are maps; it was used, in
whatever way and with whatever success; or it was put together from grammars that can be reached. -/
inductive Reached : Grammar → Prop
  | built {grammar : Grammar} (built : Built grammar)
      (mapped : grammar.EachSet (RuleSet.Throughout RuleSet.Mapped)) : Reached grammar
  | used {grammar : Grammar} (reached : Reached grammar) (rolls : Rolls)
      (operations : List Operation) :
      Reached (Operation.runAll ⟨grammar, rolls⟩ operations).2.grammar
  | addModifiers {grammar : Grammar} (reached : Reached grammar)
      (modifiers : List (String × Modifier)) : Reached (grammar.addModifiers modifiers)
  | addSubgrammar {grammar sub : Grammar} (reached : Reached grammar) (reachedSub : Reached sub) :
      Reached (grammar.addSubgrammar sub)
  | merge {grammar other : Grammar} (reached : Reached grammar) (reachedOther : Reached other) :
      Reached (grammar.merge other)

theorem eachSet_iff {holds : RuleSet → Prop} {grammar : Grammar} :
    grammar.EachSet holds ↔ grammar.EachSymbol fun _ _ symbol => symbol.EachSet holds :=
  .rfl

theorem EachSet.addSubgrammar {holds : RuleSet → Prop} {grammar sub : Grammar}
    (each : grammar.EachSet holds) (eachSub : sub.EachSet holds) :
    (grammar.addSubgrammar sub).EachSet holds :=
  eachSet_iff.mpr ((eachSet_iff.mp each).addSubgrammar (eachSet_iff.mp eachSub))

theorem eachSet_ofWritten {holds : RuleSet → Prop} {rules : WrittenGrammar} {settings : Settings}
    (each : ∀ entry ∈ rules, holds (.ofWritten settings.falloff entry.2)) :
    (ofWritten rules settings).EachSet holds :=
  eachSet_iff.mpr (eachSymbol_ofWritten fun entry member =>
    Symbol.eachSet_declared (each entry member) entry.1)

theorem counted_ofWritten (rules : WrittenGrammar) (settings : Settings) :
    (ofWritten rules settings).EachSet (RuleSet.Throughout RuleSet.Counted) :=
  eachSet_ofWritten fun _ _ => RuleSet.counted_ofWritten _ _

theorem Built.counted {grammar : Grammar} (built : grammar.Built) :
    grammar.EachSet (RuleSet.Throughout RuleSet.Counted) := by
  induction built with
  | ofEntries rules settings => exact counted_ofWritten _ settings
  | ofRon read =>
    obtain ⟨rules, _, rfl⟩ := written_of_ofRon read
    exact counted_ofWritten rules {}
  | ofJson read =>
    obtain ⟨rules, _, rfl⟩ := written_of_ofJson read
    exact counted_ofWritten rules {}
  | ofRonFile read =>
    obtain ⟨rules, _, rfl⟩ := written_of_ofRonFile read
    exact counted_ofWritten rules {}
  | ofRecipe builds _ subs =>
    obtain ⟨rules, settings, _, _, rfl⟩ := written_of_build builds
    exact List.forall_mem_cons.mpr
      ⟨(counted_ofWritten rules settings).own, fun sub member => (subs sub member).own⟩
  | addModifiers _ modifiers each => exact (eachSet_iff.mp each).addModifiers modifiers
  | addSubgrammar _ _ each eachSub => exact each.addSubgrammar eachSub
  | merge _ _ each eachOther =>
    exact (eachSet_iff.mp each).merge (eachSet_iff.mp eachOther) fun _ _ => id

theorem Ordered.addModifiers {grammar : Grammar} (ordered : grammar.Ordered)
    (modifiers : List (String × Modifier)) : (grammar.addModifiers modifiers).Ordered := by
  obtain ⟨own, subs⟩ := List.forall_mem_cons.mp ordered
  exact List.forall_mem_cons.mpr ⟨own, subs⟩

theorem Ordered.addSubgrammar {grammar sub : Grammar} (ordered : grammar.Ordered)
    (orderedSub : sub.Ordered) : (grammar.addSubgrammar sub).Ordered := by
  obtain ⟨own, subs⟩ := List.forall_mem_cons.mp ordered
  exact List.forall_mem_cons.mpr
    ⟨own, List.forall_mem_append.mpr ⟨subs, List.forall_mem_singleton.mpr orderedSub.symbols⟩⟩

theorem Ordered.merge {grammar other : Grammar} (ordered : grammar.Ordered)
    (orderedOther : other.Ordered) : (grammar.merge other).Ordered := by
  obtain ⟨own, subs⟩ := List.forall_mem_cons.mp ordered
  obtain ⟨_, subsOther⟩ := List.forall_mem_cons.mp orderedOther
  exact List.forall_mem_cons.mpr
    ⟨own.overlay _, List.forall_mem_append.mpr ⟨subs, subsOther⟩⟩

namespace Reached

variable {grammar : Grammar} (reached : grammar.Reached)
include reached

theorem ordered : grammar.Ordered := by
  induction reached with
  | built built _ => exact built.pristine.ordered
  | used _ rolls operations ordered => exact (kept_renews.operations _ operations ordered).2
  | addModifiers _ modifiers ordered => exact ordered.addModifiers modifiers
  | addSubgrammar _ _ ordered orderedSub => exact ordered.addSubgrammar orderedSub
  | merge _ _ ordered orderedOther => exact ordered.merge orderedOther

theorem eachSymbol {holds : String → Symbol → Prop} (lasting : Symbol.Lasting fun _ => holds)
    (first : ∀ {grammar : Grammar}, grammar.Built →
      grammar.EachSet (RuleSet.Throughout RuleSet.Mapped) →
      grammar.EachSymbol fun _ => holds) :
    grammar.EachSymbol fun _ => holds := by
  induction reached with
  | built built mapped => exact first built mapped
  | used _ rolls operations each => exact lasting.kept.operations _ operations each
  | addModifiers _ modifiers each => exact each.addModifiers modifiers
  | addSubgrammar _ _ each eachSub => exact each.addSubgrammar eachSub
  | merge _ _ each eachOther => exact each.merge eachOther fun _ _ => id

theorem eachSet {holds : RuleSet → Prop} (lasting : RuleSet.Lasting holds)
    (first : ∀ {grammar : Grammar}, grammar.Built →
      grammar.EachSet (RuleSet.Throughout RuleSet.Mapped) →
      grammar.EachSet (RuleSet.Throughout holds)) :
    grammar.EachSet (RuleSet.Throughout holds) :=
  reached.eachSymbol lasting.symbol first

theorem counted : grammar.EachSet (RuleSet.Throughout RuleSet.Counted) :=
  reached.eachSet RuleSet.lasting_counted fun built _ => built.counted

theorem mapped : grammar.EachSet (RuleSet.Throughout RuleSet.Mapped) :=
  reached.eachSet RuleSet.lasting_mapped fun _ mapped => mapped

end Reached

end Grammar

theorem reached_forecast : forecast.Reached := by
  have walk : forecast.EachSet (RuleSet.Throughout RuleSet.Mapped) := by
    refine .addSubgrammar (Grammar.eachSet_ofWritten ?_) (Grammar.eachSet_ofWritten ?_)
    · refine List.forall_mem_singleton.mpr (.intro (List.pairwise_singleton _ _) ?_)
      exact List.forall_mem_singleton.mpr (.intro .nil (List.forall_mem_nil _))
    · exact List.forall_mem_singleton.mpr (.intro .nil (List.forall_mem_nil _))
  exact .built (.addSubgrammar (.ofEntries _ _) (.ofEntries _ _)) walk

end TextGrammar
