/-! # Rules as written

The rules of a symbol as a grammar's author gives them, before any of them is counted or pushed.
-/

namespace TextGrammar

/-- One alternative, several, or alternatives that depend on the text of a condition. -/
inductive WrittenRules
  | one (rule : String)
  | many (rules : List String)
  | conditional (condition : String) (branches : List (String × WrittenRules))
      (defaults : List String)
deriving Repr, Inhabited

/-- The rules of every symbol, by name. -/
abbrev WrittenGrammar := List (String × WrittenRules)

mutual

/-- Whether two written rules are the same. -/
def WrittenRules.same : WrittenRules → WrittenRules → Bool
  | .one a, .one b => a == b
  | .many a, .many b => a == b
  | .conditional a branches as, .conditional b others bs =>
    a == b && as == bs && sameBranches branches others
  | _, _ => false

/-- Whether two lists of branches are the same. -/
def sameBranches : List (String × WrittenRules) → List (String × WrittenRules) → Bool
  | [], [] => true
  | (a, rules) :: rest, (b, others) :: more =>
    a == b && rules.same others && sameBranches rest more
  | _, _ => false

end

/-- Whether two written grammars are the same. -/
def WrittenGrammar.same : WrittenGrammar → WrittenGrammar → Bool := sameBranches

end TextGrammar
