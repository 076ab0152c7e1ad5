import TextGrammar.Grammar
import TextGrammar.Rule.TagHead
import TextGrammar.Proofs.Stacks

/-! # What causes problems

A problem tells by its kind what was going on when it was met: a rule was read, a rule was selected,
a set was taken off a stack, a modifier was looked up, or there was no room.
-/

namespace TextGrammar

/-- What was going on when a problem was met. -/
inductive Cause
  | reading
  | selecting
  | takingOff
  | modifying
  | room
deriving DecidableEq, Repr

/-- What was going on when a problem was met. -/
def Problem.cause : Problem → Cause
  | .unclosedTag | .unclosedBracket | .strayBracket | .emptyTag _ | .emptyAction _ => .reading
  | .missingSymbol _ | .emptyRuleStack _ | .noDefaultRules _ => .selecting
  | .nothingToPop _ | .noSymbolToPop _ => .takingOff
  | .missingModifier _ => .modifying
  | .recursionLimit _ _ => .room

/-- Whether every problem of a list has a cause. -/
def Cause.OfAll (cause : Cause) (problems : List Problem) : Prop :=
  ∀ problem ∈ problems, problem.cause = cause

namespace Scanned

theorem cause_cut {kind : SegmentKind} {reversed : List Char} {position : Nat} {rest : Scanned}
    (reading : Cause.reading.OfAll rest.problems) :
    Cause.reading.OfAll (Scanned.cut kind reversed position rest).problems := by
  cases reversed with
  | cons ch before => exact reading
  | nil =>
    cases kind with
    | plain => exact reading
    | tag | action => exact List.forall_mem_cons.mpr ⟨rfl, reading⟩

theorem cause_leftOpen (cursor : Cursor) : Cause.reading.OfAll cursor.leftOpen := by
  rw [Cursor.leftOpen]
  split_ifs <;> simp [Cause.OfAll, Problem.cause]

theorem cause_scan (cursor : Cursor) (reversed text : List Char) :
    Cause.reading.OfAll (cursor.scan reversed text).problems := by
  induction text generalizing cursor reversed with
  | nil => exact cause_cut (cause_leftOpen cursor)
  | cons ch rest ih =>
    rw [Cursor.scan]
    split
    · exact cause_cut (ih _ _)
    · exact ih _ _

theorem cause_ofRule (rule : String) : Cause.reading.OfAll (Scanned.ofRule rule).problems :=
  cause_scan _ _ _

end Scanned

namespace TagHead

variable {raw : String} {head : TagHead}

/-- The problems of a tag head are those of its scan. -/
theorem problems_of_parse (parsed : parse raw = .ok head) :
    head.problems = (Scanned.ofRule raw).problems := by
  simp only [parse] at parsed
  split at parsed
  · cases parsed
    rfl
  · split at parsed <;> cases parsed <;> rfl
  · contradiction

theorem cause_parse (parsed : parse raw = .ok head) : Cause.reading.OfAll head.problems :=
  problems_of_parse parsed ▸ Scanned.cause_ofRule raw

end TagHead

theorem Symbol.cause_selectUnlogged (symbol : Symbol) (path : List String) (rolls : Rolls) :
    Cause.selecting.OfAll (symbol.selectUnlogged path rolls).problems := by
  simp only [selectUnlogged]
  split
  · exact List.forall_mem_singleton.mpr rfl
  · split
    · exact List.forall_mem_nil _
    · exact List.forall_mem_singleton.mpr rfl

namespace Grammar

theorem cause_select (grammar : Grammar) (key : String) (origin : Option Place)
    (path : List String) (rolls : Rolls) :
    Cause.selecting.OfAll (grammar.select key origin path rolls).problems := by
  simp only [select]
  split
  · exact Symbol.cause_selectUnlogged _ path rolls
  · split
    · next selects =>
      obtain ⟨_, _, _, symbol, _, _, rfl, _⟩ := eq_of_selectAmong? selects
      exact symbol.cause_selectUnlogged path rolls
    · exact List.forall_mem_singleton.mpr rfl

/-- A pop fails for want of a symbol or for want of a set on its stack. -/
theorem problem_of_pop {grammar : Grammar} {key : String} {problem : Problem}
    (failed : grammar.pop key = .error problem) :
    grammar.symbol? key = none ∧ problem = .noSymbolToPop key ∨
      ∃ symbol, grammar.symbol? key = some symbol ∧ problem = .nothingToPop symbol.key := by
  cases found : grammar.symbol? key with
  | none =>
    simp only [pop, found, Except.error.injEq] at failed
    exact .inl ⟨rfl, failed.symm⟩
  | some symbol =>
    cases stack : symbol.stack with
    | nil =>
      simp only [pop, found, Symbol.pop, stack, Except.error.injEq] at failed
      exact .inr ⟨symbol, rfl, failed.symm⟩
    | cons top below => simp only [pop, found, Symbol.pop, stack, reduceCtorEq] at failed

theorem cause_pop {grammar : Grammar} {key : String} {problem : Problem}
    (failed : grammar.pop key = .error problem) : problem.cause = .takingOff := by
  rcases problem_of_pop failed with ⟨_, rfl⟩ | ⟨_, _, rfl⟩ <;> rfl

end Grammar

end TextGrammar
