import TextGrammar.Proofs.Steps

/-! # How deep conditions nest

A selection evaluates one condition for each conditional set on its way inward, so it meets no more
conditions than sets stand in one another. Nothing that runs makes sets nest deeper: a push makes
plain sets, and a selection changes counters only.
-/

namespace TextGrammar

namespace RuleSet

mutual

/-- How many conditional sets stand in one another. -/
def nesting : RuleSet → Nat
  | .plain _ => 0
  | .conditional _ branches _ => nestingAmong branches + 1

/-- How many conditional sets stand in one another among branches. -/
def nestingAmong : List (String × RuleSet) → Nat
  | [] => 0
  | (_, set) :: rest => max set.nesting (nestingAmong rest)

end

mutual

@[simp]
theorem nesting_clear : (set : RuleSet) → set.clear.nesting = set.nesting
  | .plain _ => rfl
  | .conditional _ branches _ => congrArg (· + 1) (nestingAmong_clearBranches branches)

@[simp]
theorem nestingAmong_clearBranches : (branches : List (String × RuleSet)) →
    nestingAmong (clearBranches branches) = nestingAmong branches
  | [] => rfl
  | (_, set) :: rest => congrArg₂ max (nesting_clear set) (nestingAmong_clearBranches rest)

end

theorem nesting_le_nestingAmong {key : String} {branch : RuleSet}
    {branches : List (String × RuleSet)} (found : branches.lookup key = some branch) :
    branch.nesting ≤ nestingAmong branches := by
  induction branches with
  | nil => contradiction
  | cons entry rest ih =>
    rcases entry with ⟨other, set⟩
    rw [List.lookup_cons] at found
    split at found
    · cases found
      exact Nat.le_max_left _ _
    · exact Nat.le_trans (ih found) (Nat.le_max_right _ _)

theorem nesting_lt_of_branch? {set branch : RuleSet} {key : String}
    (found : set.branch? key = some branch) : branch.nesting < set.nesting := by
  cases set with
  | plain pool => contradiction
  | conditional condition branches pool => exact Nat.lt_succ_of_le (nesting_le_nestingAmong found)

/-- As many branches inward as conditional sets can stand in one another there is no condition. -/
theorem condition?_descend? {set : RuleSet} {path : List String}
    (deep : set.nesting ≤ path.length) : (set.descend? path).bind (·.condition?) = none := by
  induction path generalizing set with
  | nil =>
    cases set with
    | plain pool => rfl
    | conditional condition branches pool => exact absurd deep (Nat.not_succ_le_zero _)
  | cons key rest ih =>
    cases found : set.branch? key with
    | none => simp only [descend?, found, Option.bind_none]
    | some branch =>
      have inner := Nat.lt_of_lt_of_le (nesting_lt_of_branch? found) deep
      simpa only [descend?, found, Option.bind_some] using ih (Nat.le_of_lt_succ inner)

end RuleSet

namespace Grammar

/-- No set on a stack of the grammar or of a subgrammar has more than some number of conditional
sets standing in one another. -/
def NestsWithin (grammar : Grammar) (levels : Nat) : Prop :=
  ∀ owner ∈ grammar :: grammar.subgrammars, ∀ key, ∀ set ∈ owner.setsOn key, set.nesting ≤ levels

variable {grammar : Grammar} {levels : Nat}

theorem setsOn_eq_bareSymbol? (grammar : Grammar) (key : String) :
    grammar.setsOn key = ((grammar.bareSymbol? key).map (·.stack)).getD [] := by
  simp only [setsOn, bareSymbol?, Option.map_map]
  rfl

theorem mem_setsOn_of_top? {key : String} {symbol : Symbol} {set : RuleSet}
    (found : grammar.symbol? key = some symbol) (top : symbol.top? = some set) :
    set.clear ∈ grammar.setsOn key := by
  simp only [setsOn, found, Option.map_some, Option.getD_some]
  exact List.mem_map_of_mem (List.mem_of_head? top)

theorem nestsWithin_of_symbols (within : ∀ owner ∈ grammar :: grammar.subgrammars,
    ∀ entry ∈ owner.symbols, ∀ set ∈ entry.2.stack, set.nesting ≤ levels) :
    grammar.NestsWithin levels := by
  intro owner member key set stands
  cases found : owner.symbol? key with
  | none =>
    simp only [setsOn, found, Option.map_none, Option.getD_none, List.not_mem_nil] at stands
  | some symbol =>
    simp only [setsOn, found, Option.map_some, Option.getD_some] at stands
    obtain ⟨original, onStack, rfl⟩ := List.mem_map.mp stands
    rw [RuleSet.nesting_clear]
    exact within owner member (key, symbol) (Keyed.mem_of_lookup found) original onStack

/-- What a selection reads stands on a stack of the grammar or of a subgrammar. -/
theorem mem_setsOn_of_ruleSet? {key : String} {set : RuleSet}
    (read : grammar.ruleSet? key = some set) :
    ∃ owner ∈ grammar :: grammar.subgrammars, set.clear ∈ owner.setsOn key := by
  rw [ruleSet?] at read
  split at read
  · next symbol found =>
    exact ⟨grammar, List.mem_cons_self, mem_setsOn_of_top? found read⟩
  · obtain ⟨symbol, supplied, top⟩ := Option.bind_eq_some_iff.mp read
    obtain ⟨sub, member, found⟩ := List.exists_of_findSome?_eq_some supplied
    exact ⟨sub, List.mem_cons_of_mem _ member, mem_setsOn_of_top? found top⟩

theorem NestsWithin.nesting_le {key : String} {set : RuleSet} (within : grammar.NestsWithin levels)
    (read : grammar.ruleSet? key = some set) : set.nesting ≤ levels := by
  obtain ⟨owner, member, stands⟩ := mem_setsOn_of_ruleSet? read
  simpa only [RuleSet.nesting_clear] using within owner member key _ stands

end Grammar

namespace Expansion

variable {source target state : Expansion} {event : Event} {events : List Event} {levels : Nat}

/-- A selection that is as many branches inward as sets can nest has no condition left. -/
theorem condition?_of_nestsWithin (within : state.grammar.NestsWithin levels) (key : String)
    {path : List String} (deep : levels ≤ path.length) : state.condition? key path = none := by
  cases read : state.grammar.ruleSet? key with
  | none => simp only [condition?, setAt?, read, Option.bind_none]
  | some set =>
    have ends := RuleSet.condition?_descend? (Nat.le_trans (within.nesting_le read) deep)
    simpa only [condition?, setAt?, read, Option.bind_some] using ends

/-- Only plain sets are pushed. -/
theorem Step.nesting_pushed {site : Site} {key : String} {set : RuleSet}
    (step : Step source (.pushed site key set) target) : set.nesting = 0 := by
  generalize pushed : Event.pushed site key set = event at step
  cases step with
  | pushed site key alternatives =>
    cases pushed
    rfl
  | took kind _ | missed kind _ => rcases kind with rfl | rfl <;> contradiction
  | _ => contradiction

/-- No step brings a set that nests deeper than the sets there were. -/
theorem Step.nestsWithin (step : Step source event target)
    (within : source.grammar.NestsWithin levels) : target.grammar.NestsWithin levels := by
  obtain ⟨own, subs⟩ := List.forall_mem_cons.mp within
  refine List.forall_mem_cons.mpr ⟨fun key set member => ?_, fun sub member key set stands => ?_⟩
  · rw [step.setsOn key] at member
    cases event with
    | pushed site other pushed =>
      -- The pushed set is the only new one, and it is plain.
      simp only [Event.restack] at member
      split at member
      · rcases List.mem_cons.mp member with rfl | member
        · rw [RuleSet.nesting_clear, step.nesting_pushed]
          exact Nat.zero_le _
        · exact own key set member
      · exact own key set member
    | popped other popped | released other popped =>
      cases popped with
      | none => exact own key set member
      | some top =>
        simp only [Event.restack] at member
        split at member
        · exact own key set (List.mem_of_mem_tail member)
        · exact own key set member
    | _ => exact own key set member
  · have same : sub.bareSymbol? ∈ source.grammar.subgrammars.map Grammar.bareSymbol? :=
      step.subgrammars ▸ List.mem_map_of_mem member
    obtain ⟨former, known, equal⟩ := List.mem_map.mp same
    rw [Grammar.setsOn_eq_bareSymbol?, ← equal, ← Grammar.setsOn_eq_bareSymbol?] at stands
    exact subs former known key set stands

theorem Path.nestsWithin (path : Path Step source events target) :
    source.grammar.NestsWithin levels → target.grammar.NestsWithin levels :=
  path.relate (fun s t => s.grammar.NestsWithin levels → t.grammar.NestsWithin levels) (fun _ => id)
    (fun first second => second ∘ first) Step.nestsWithin

end Expansion

end TextGrammar
