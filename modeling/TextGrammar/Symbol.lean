import TextGrammar.Problem
import TextGrammar.RuleSet

/-! # Symbols

A symbol is a named stack of rule sets over the set that its grammar declares. Selection reads the
top of the stack, pushes go over it, and pops may take even the declared set off; clearing brings
back the declared set alone.
-/

namespace TextGrammar

/-- The place of a node in its tree: its depth, and its index among its siblings. -/
structure Place where
  depth : Nat
  index : Nat
deriving DecidableEq, Repr, Inhabited

/-- What stands in a text for something that could not be expanded. -/
def placeholder (name : String) : String :=
  "((" ++ name ++ "))"

/-- A named stack of rule sets. -/
structure Symbol where
  key : String
  /-- The set as declared, with its counters at zero. -/
  base : RuleSet
  /-- The stack, top first. -/
  stack : List RuleSet
  /-- The places that selected from the symbol, latest first. -/
  log : List (Option Place) := []
  /-- Created by a push rather than declared. -/
  dynamic : Bool := false

namespace Symbol

/-- A symbol with a declared set. -/
def declared (key : String) (base : RuleSet) : Symbol :=
  { key, base, stack := [base] }

/-- A symbol that a push brings into being. -/
def pushed (key : String) (set : RuleSet) : Symbol :=
  { declared key set with dynamic := true }

/-- The set that selection reads. -/
def top? (symbol : Symbol) : Option RuleSet :=
  symbol.stack.head?

/-- Put a set on top of the stack. -/
def push (symbol : Symbol) (set : RuleSet) : Symbol :=
  { symbol with stack := set :: symbol.stack }

/-- Take the top set off the stack. -/
def pop (symbol : Symbol) : Except Problem (RuleSet × Symbol) :=
  match symbol.stack with
  | [] => .error (.nothingToPop symbol.key)
  | top :: below => .ok (top, { symbol with stack := below })

/-- Bring back the declared set alone and forget all use. -/
def clear (symbol : Symbol) : Symbol :=
  { symbol with base := symbol.base.clear, stack := [symbol.base.clear], log := [] }

/-- What a selection comes to: the rule if there is one, the problems met, and what the selection
leaves of the symbol and the rolls. -/
structure Selection where
  rule : Option String
  problems : List Problem
  symbol : Symbol
  rolls : Rolls

/-- Select from the top set without a record of who asked. An empty stack offers its placeholder;
a set without a fitting alternative offers nothing. -/
def selectUnlogged (symbol : Symbol) (path : List String) (rolls : Rolls) : Selection :=
  match symbol.stack with
  | [] => ⟨some (placeholder symbol.key), [.emptyRuleStack symbol.key], symbol, rolls⟩
  | top :: below =>
    match top.select? rolls path with
    | some selected =>
      ⟨some selected.rule, [], { symbol with stack := selected.set :: below }, selected.rolls⟩
    | none => ⟨none, [.noDefaultRules symbol.key], symbol, rolls⟩

/-- Select from the top set for a place, and log it. -/
def select (symbol : Symbol) (origin : Option Place) (path : List String) (rolls : Rolls) :
    Selection :=
  { symbol with log := origin :: symbol.log }.selectUnlogged path rolls

end Symbol

end TextGrammar
