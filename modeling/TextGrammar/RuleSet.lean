import TextGrammar.Chance.Rolls
import TextGrammar.Keyed
import TextGrammar.WrittenRules

/-! # Rule sets

A rule set is one level of a symbol's stack: a pool of alternatives, and for a conditional set a
condition and further sets to choose from by its text. Selection counts how often each alternative
was taken; the counts are never read by it.
-/

namespace TextGrammar

/-- Alternatives to draw from, with the falloff that bends the roll and a counter for each. -/
structure Pool where
  alternatives : List String
  falloff : Float
  uses : List UInt32

/-- A pool with all counters at zero. -/
def Pool.fresh (falloff : Float) (alternatives : List String) : Pool :=
  ⟨alternatives, falloff, alternatives.map fun _ => 0⟩

/-- Count one more use of an alternative; counters wrap. -/
def Pool.countUse (pool : Pool) (index : Nat) : Pool :=
  { pool with uses := pool.uses.modify index (· + 1) }

/-- The pool with all counters at zero. -/
def Pool.clear (pool : Pool) : Pool :=
  { pool with uses := pool.uses.map fun _ => 0 }

/-- One level of a symbol's stack. The pool of a conditional set serves when no branch does. -/
inductive RuleSet
  | plain (pool : Pool)
  | conditional (condition : String) (branches : List (String × RuleSet)) (pool : Pool)

namespace RuleSet

/-- The alternatives used when no branch applies. -/
def pool : RuleSet → Pool
  | .plain pool => pool
  | .conditional _ _ pool => pool

/-- The set with another pool. -/
def withPool (pool : Pool) : RuleSet → RuleSet
  | .plain _ => .plain pool
  | .conditional condition branches _ => .conditional condition branches pool

/-- The alternatives used when no branch applies. -/
def defaults (set : RuleSet) : List String :=
  set.pool.alternatives

/-- The condition of a conditional set. -/
def condition? : RuleSet → Option String
  | .plain _ => none
  | .conditional condition _ _ => some condition

/-- The branches of a set, by the text that the condition must have. -/
def branches : RuleSet → List (String × RuleSet)
  | .plain _ => []
  | .conditional _ branches _ => branches

/-- The branch that a text of the condition leads to. -/
def branch? (set : RuleSet) (key : String) : Option RuleSet :=
  set.branches.lookup key

/-- The set with one branch replaced. -/
def withBranch (set : RuleSet) (key : String) (branch : RuleSet) : RuleSet :=
  match set with
  | .plain pool => .plain pool
  | .conditional condition branches pool =>
    .conditional condition (Keyed.modify key (fun _ => branch) branches) pool

/-- Follow texts of conditions inward, outermost first. -/
def descend? (set : RuleSet) : List String → Option RuleSet
  | [] => some set
  | key :: rest => (set.branch? key).bind (·.descend? rest)

/-- The set with another falloff; its branches keep theirs. -/
def withFalloff (falloff : Float) (set : RuleSet) : RuleSet :=
  set.withPool { set.pool with falloff }

/-- A plain set of alternatives that were never used. -/
def ofAlternatives (falloff : Float) (alternatives : List String) : RuleSet :=
  .plain (.fresh falloff alternatives)

mutual

/-- The set that written rules describe, with one falloff at every level. -/
def ofWritten (falloff : Float) : WrittenRules → RuleSet
  | .one rule => .plain (.fresh falloff [rule])
  | .many rules => .plain (.fresh falloff rules)
  | .conditional condition branches defaults =>
    .conditional condition (branchesOfWritten falloff branches) (.fresh falloff defaults)

/-- The branches that written branches describe. -/
def branchesOfWritten (falloff : Float) :
    List (String × WrittenRules) → List (String × RuleSet)
  | [] => []
  | (key, rules) :: rest => (key, ofWritten falloff rules) :: branchesOfWritten falloff rest

end

mutual

/-- The rules of the set in written form; a single alternative is written as a list. -/
def toWritten : RuleSet → WrittenRules
  | .plain pool => .many pool.alternatives
  | .conditional condition branches pool =>
    .conditional condition (branchesToWritten branches) pool.alternatives

/-- The branches of a set in written form. -/
def branchesToWritten : List (String × RuleSet) → List (String × WrittenRules)
  | [] => []
  | (key, set) :: rest => (key, set.toWritten) :: branchesToWritten rest

end

mutual

/-- The set with all counters at zero, those of its branches too. -/
def clear : RuleSet → RuleSet
  | .plain pool => .plain pool.clear
  | .conditional condition branches pool =>
    .conditional condition (clearBranches branches) pool.clear

/-- Branches with all counters at zero. -/
def clearBranches : List (String × RuleSet) → List (String × RuleSet)
  | [] => []
  | (key, set) :: rest => (key, set.clear) :: clearBranches rest

end

/-- A successful selection: the rule, the set with the use counted, and the rolls left. -/
structure Selected where
  rule : String
  set : RuleSet
  rolls : Rolls

/-- Select from the set's own pool. An empty pool offers nothing and draws no roll; of one
alternative a roll is drawn all the same. -/
def selectDefault? (set : RuleSet) (rolls : Rolls) : Option Selected :=
  let pool := set.pool
  let index := pickIndex pool.falloff rolls.head pool.alternatives.length
  pool.alternatives[index]?.map fun rule => ⟨rule, set.withPool (pool.countUse index), rolls.tail⟩

/-- Select a rule, given the texts of the conditions from the outermost inward. A branch that offers
nothing leaves the choice to the alternatives of the set around it. -/
def select? (rolls : Rolls) : List String → RuleSet → Option Selected
  | [], set => set.selectDefault? rolls
  | key :: rest, set =>
    match (set.branch? key).bind (select? rolls rest) with
    | some inner => some { inner with set := set.withBranch key inner.set }
    | none => set.selectDefault? rolls

end RuleSet

end TextGrammar
