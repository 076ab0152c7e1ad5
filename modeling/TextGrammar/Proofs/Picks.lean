import TextGrammar.Proofs.Reached

/-! # Which counter a selection counts in

A selection follows its path inward through branches as far as they exist. Of the sets it meets on
the way it draws from the innermost that has defaults, and counts one use there. Nothing depends on
what the roll is bent to: the index picked is always that of a default. A set that can be reached
has a counter for each default, so that the use is counted.
-/

namespace TextGrammar

namespace RuleSet

/-- A set that can be reached: it was read from written rules, or put together from alternatives or
from branches, and then only used. -/
inductive Reached : RuleSet → Prop
  | written (falloff : Float) (rules : WrittenRules) : Reached (.ofWritten falloff rules)
  | literal (falloff : Float) (alternatives : List String) :
      Reached (.ofAlternatives falloff alternatives)
  | conditional (falloff : Float) (condition : String) {branches : List (String × RuleSet)}
      (defaults : List String) (each : ∀ entry ∈ branches, Reached entry.2) :
      Reached (.conditional condition branches (.fresh falloff defaults))
  | withFalloff {set : RuleSet} (falloff : Float) (reached : Reached set) :
      Reached (set.withFalloff falloff)
  | selected {set : RuleSet} {rolls : Rolls} {path : List String} {selected : Selected}
      (reached : Reached set) (selects : set.select? rolls path = some selected) :
      Reached selected.set
  | clear {set : RuleSet} (reached : Reached set) : Reached set.clear

/-- In a set that can be reached there is a counter for each default, at every level. -/
theorem Reached.counted {set : RuleSet} (reached : set.Reached) : set.Throughout Counted := by
  induction reached with
  | written falloff rules => exact counted_ofWritten falloff rules
  | literal falloff alternatives =>
    exact .intro (lasting_counted.pushed falloff alternatives) (List.forall_mem_nil _)
  | conditional falloff condition defaults _ ih => exact .intro (List.length_map _) ih
  | @withFalloff set falloff _ ih =>
    apply Throughout.intro
    · rw [Counted, RuleSet.withFalloff, pool_withPool]
      exact ih.here
    · rw [RuleSet.withFalloff, branches_withPool]
      exact ih.inward
  | selected _ selects ih => exact ih.select? lasting_counted selects
  | clear _ ih => exact ih.clear lasting_counted

/-- What a set is apart from the sets in its branches. -/
structure Layer where
  condition? : Option String
  keys : List String
  pool : Pool

/-- The outermost layer of a set. -/
def layer (set : RuleSet) : Layer :=
  ⟨set.condition?, Keyed.keys set.branches, set.pool⟩

/-- The layer with another value in one counter. -/
def Layer.withUses (layer : Layer) (index : Nat) (count : UInt32) : Layer :=
  { layer with pool := { layer.pool with uses := layer.pool.uses.set index count } }

/-- The sets that a path leads through, outermost first: those that its beginnings lead to. -/
def met (set : RuleSet) (path : List String) : List RuleSet :=
  path.inits.filterMap set.descend?

section

variable (set : RuleSet) (key : String) (rest : List String)

theorem met_nil : set.met [] = [set] :=
  rfl

theorem met_cons :
    set.met (key :: rest) = set :: ((set.branch? key).map (·.met rest)).getD [] := by
  have deeper : set.descend? ∘ (key :: ·) = fun inward =>
      (set.branch? key).bind (·.descend? inward) := rfl
  simp only [met, List.inits_cons, List.filterMap_cons, descend?, List.filterMap_map, deeper]
  cases set.branch? key with
  | none => exact congrArg (set :: ·) (List.filterMap_none rest.inits)
  | some branch => rfl

end

section

variable (set : RuleSet) (pool : Pool)

theorem layer_withPool : (set.withPool pool).layer = { set.layer with pool } := by
  cases set <;> rfl

theorem descend?_withPool (key : String) (rest : List String) :
    (set.withPool pool).descend? (key :: rest) = set.descend? (key :: rest) := by
  cases set <;> rfl

end

theorem layer_withBranch (key : String) (branch set : RuleSet) :
    (set.withBranch key branch).layer = set.layer := by
  cases set with
  | plain pool => rfl
  | conditional condition branches pool =>
    exact congrArg (Layer.mk (some condition) · pool) (Keyed.keys_modify key _ branches)

/-- Replacing a branch is seen on the paths through its key alone. -/
theorem descend?_withBranch {key : String} {previous set : RuleSet}
    (found : set.branch? key = some previous) (branch : RuleSet) (other : String)
    (rest : List String) :
    (set.withBranch key branch).descend? (other :: rest) =
      if other = key then branch.descend? rest else set.descend? (other :: rest) := by
  have looked : (set.withBranch key branch).branch? other =
      if other = key then some branch else set.branch? other := by
    rw [branch?, branches_withBranch, Keyed.lookup_modify, ← branch?, found]
    rfl
  rw [descend?, looked]
  split <;> rfl

/-- A rule was drawn from the innermost of some sets met that has defaults, and the use counted in
the set where the beginning of the path leads that is as long as the sets around it are many. -/
structure DrawnFrom (set : RuleSet) (path : List String) (rolls : Rolls) (selected : Selected)
    (around : List RuleSet) (source : RuleSet) (within : List RuleSet) (index : Nat)
    (count : UInt32) : Prop where
  met : set.met path = around ++ source :: within
  stands : set.descend? (path.take around.length) = some source
  innermost : ∀ deeper ∈ within, deeper.defaults = []
  picked : index = pickIndex source.pool.falloff rolls.head source.defaults.length
  rule : source.defaults[index]? = some selected.rule
  counter : source.pool.uses[index]? = some count
  rolls : selected.rolls = rolls.tail
  layers (inward : List String) : (selected.set.descend? inward).map layer =
    if inward = path.take around.length then some (source.layer.withUses index (count + 1))
    else (set.descend? inward).map layer

section

variable {set : RuleSet} {rolls : Rolls}

/-- Whatever the roll, there is a default for it. -/
theorem selectDefault?_eq_none_iff : set.selectDefault? rolls = none ↔ set.defaults = [] := by
  rw [selectDefault?, Option.map_eq_none_iff, List.getElem?_eq_none_iff]
  constructor
  · intro beyond
    by_contra some
    have inside := pickIndex_lt set.pool.falloff rolls.head (List.length_pos_of_ne_nil some)
    exact absurd inside (Nat.not_lt_of_le beyond)
  · intro none
    rw [← defaults, none]
    exact Nat.zero_le _

theorem countUse_of_counter {pool : Pool} {index : Nat} {count : UInt32}
    (counter : pool.uses[index]? = some count) :
    pool.countUse index = { pool with uses := pool.uses.set index (count + 1) } := by
  rw [Pool.countUse, List.modify_eq_set_getElem?, counter]
  rfl

/-- A set draws from its own defaults if all that the path leads to inside it has none. -/
theorem drawnFrom_selectDefault? {path : List String} {selected : Selected}
    {within : List RuleSet} (counted : set.Counted) (met : set.met path = set :: within)
    (bare : ∀ deeper ∈ within, deeper.defaults = [])
    (selects : set.selectDefault? rolls = some selected) :
    ∃ index count, set.DrawnFrom path rolls selected [] set within index count := by
  obtain ⟨rule, picked, rfl⟩ := Option.map_eq_some_iff.mp selects
  obtain ⟨inside, _⟩ := List.getElem?_eq_some_iff.mp picked
  have counter := List.getElem?_eq_getElem (inside.trans_eq counted.symm)
  refine ⟨_, _, met, rfl, bare, rfl, picked, counter, rfl, fun inward => ?_⟩
  rw [List.length_nil, List.take_zero]
  cases inward with
  | nil =>
    rw [if_pos rfl, descend?, Option.map_some, layer_withPool, countUse_of_counter counter]
    rfl
  | cons key rest => rw [if_neg (List.cons_ne_nil key rest), descend?_withPool]

/-- What a branch draws and counts, is drawn and counted in the set around it. -/
theorem DrawnFrom.of_branch {branch source : RuleSet} {key : String} {rest : List String}
    {inner : Selected} {around within : List RuleSet} {index : Nat} {count : UInt32}
    (found : set.branch? key = some branch)
    (drawn : branch.DrawnFrom rest rolls inner around source within index count) :
    set.DrawnFrom (key :: rest) rolls { inner with set := set.withBranch key inner.set }
      (set :: around) source within index count where
  met := by
    rw [met_cons, found, List.cons_append, ← drawn.met]
    rfl
  stands := by
    rw [List.length_cons, List.take_succ_cons, descend?, found]
    exact drawn.stands
  innermost := drawn.innermost
  picked := drawn.picked
  rule := drawn.rule
  counter := drawn.counter
  rolls := drawn.rolls
  layers inward := by
    rw [List.length_cons, List.take_succ_cons]
    cases inward with
    | nil => exact congrArg some (layer_withBranch key inner.set set)
    | cons other more =>
      rw [descend?_withBranch found]
      by_cases same : other = key
      · rw [if_pos same, drawn.layers more, descend?, same, found]
        simp only [List.cons.injEq, true_and, Option.bind_some]
      · rw [if_neg same, if_neg (fun equal => same (List.cons.inj equal).1)]

end

/-- Nothing is selected exactly if no set met has defaults. -/
theorem select?_eq_none_iff (set : RuleSet) (rolls : Rolls) (path : List String) :
    set.select? rolls path = none ↔ ∀ inner ∈ set.met path, inner.defaults = [] := by
  induction path generalizing set with
  | nil => rw [select?, selectDefault?_eq_none_iff, met_nil, List.forall_mem_singleton]
  | cons key rest ih =>
    rw [met_cons, List.forall_mem_cons, select?]
    cases found : set.branch? key with
    | none => simpa using selectDefault?_eq_none_iff
    | some branch =>
      simp only [Option.bind_some, Option.map_some, Option.getD_some]
      cases selects : branch.select? rolls rest with
      | none => simp [← ih, selects, selectDefault?_eq_none_iff]
      | some inner => simp [← ih, selects]

/-- What is selected, is drawn from the innermost set met that has defaults. -/
theorem drawnFrom_select? {set : RuleSet} {rolls : Rolls} {path : List String}
    {selected : Selected} (counted : set.Throughout Counted)
    (selects : set.select? rolls path = some selected) :
    ∃ around source within index count,
      set.DrawnFrom path rolls selected around source within index count := by
  induction path generalizing set selected with
  | nil =>
    obtain ⟨index, count, drawn⟩ :=
      drawnFrom_selectDefault? counted.here set.met_nil (List.forall_mem_nil _) selects
    exact ⟨[], set, [], index, count, drawn⟩
  | cons key rest ih =>
    rw [select?] at selects
    split at selects
    · next inner inside =>
      cases selects
      obtain ⟨branch, found, inside⟩ := Option.bind_eq_some_iff.mp inside
      obtain ⟨around, source, within, index, count, drawn⟩ := ih (counted.branch found) inside
      exact ⟨set :: around, source, within, index, count, drawn.of_branch found⟩
    · next nothing =>
      have bare : ∀ deeper ∈ ((set.branch? key).map (·.met rest)).getD [],
          deeper.defaults = [] := by
        cases found : set.branch? key with
        | none => exact List.forall_mem_nil _
        | some branch =>
          rw [found] at nothing
          exact (branch.select?_eq_none_iff rolls rest).mp nothing
      obtain ⟨index, count, drawn⟩ :=
        drawnFrom_selectDefault? counted.here (set.met_cons key rest) bare selects
      exact ⟨[], set, _, index, count, drawn⟩

/-- A selection follows its path inward as far as branches exist. It offers nothing exactly if none
of the sets met has defaults, and then leaves the symbol and the rolls as they are. Otherwise it
draws one roll and returns the default that the roll picks in the innermost set met that has any;
the counter of this default goes up by one, and nothing else changes at any level. -/
theorem select?_draws_from_innermost {set : RuleSet} (reached : set.Reached) (path : List String)
    (rolls : Rolls) :
    (set.select? rolls path = none ↔ ∀ inner ∈ set.met path, inner.defaults = []) ∧
      (set.select? rolls path = none → ∀ (symbol : Symbol) (below : List RuleSet),
        symbol.stack = set :: below → symbol.selectUnlogged path rolls =
          ⟨none, [.noDefaultRules symbol.key], symbol, rolls⟩) ∧
      ∀ selected, set.select? rolls path = some selected →
        ∃ around source within index count,
          set.DrawnFrom path rolls selected around source within index count := by
  refine ⟨set.select?_eq_none_iff rolls path, ?_, ?_⟩
  · intro nothing symbol below stack
    simp only [Symbol.selectUnlogged, stack, nothing]
  · intro selected selects
    exact drawnFrom_select? reached.counted selects

/-- A set whose path leads through a branch without defaults into one without alternatives. -/
def tideTable : RuleSet :=
  .conditional "#tide#"
    [("high", .conditional "#wind#" [("calm", .ofAlternatives 1 [])] (.fresh 1 []))]
    (.fresh 1 ["quay"])

theorem reached_tideTable : tideTable.Reached :=
  .conditional 1 "#tide#" ["quay"] (List.forall_mem_singleton.mpr
    (.conditional 1 "#wind#" [] (List.forall_mem_singleton.mpr (.literal 1 []))))

theorem select?_draws_from_innermost_tideTable :
    let rolls : Rolls := { stream := fun _ => default }
    let path := ["high", "calm"]
    tideTable.Reached ∧ (tideTable.met path).length = 3 ∧
      ∃ selected around source within index count, selected.rule = "quay" ∧
        tideTable.select? rolls path = some selected ∧
        tideTable.DrawnFrom path rolls selected around source within index count := by
  intro rolls path
  have selects : ∃ selected, selected.rule = "quay" ∧
      tideTable.select? rolls path = some selected := ⟨_, rfl, rfl⟩
  obtain ⟨selected, rule, selects⟩ := selects
  obtain ⟨_, _, drawn⟩ := select?_draws_from_innermost reached_tideTable path rolls
  obtain ⟨around, source, within, index, count, drawn⟩ := drawn selected selects
  exact ⟨reached_tideTable, rfl, selected, around, source, within, index, count, rule, selects,
    drawn⟩

end RuleSet

end TextGrammar
