import TextGrammar.Proofs.Named
import TextGrammar.Proofs.Steps

/-! # Grammars with less below the tops of their stacks

A grammar mirrors another if each of its stacks has the same sets on top, down to a ground of which
only the highest set is the same; a set without alternatives may stand for an empty ground. As long
as no set of the ground is taken off, selections from the two answer the same, except that an empty
stack is told of in one and a set without alternatives in the other. What is pushed is mirrored, and
so is what a pop takes off above the ground.
-/

namespace TextGrammar

open Expansion

/-- A problem, and the one that is met in its place where a set without alternatives stands for an
empty stack. -/
inductive Problem.Softens : Problem → Problem → Prop
  | same (problem : Problem) : Softens problem problem
  | emptied (key : String) : Softens (.emptyRuleStack key) (.noDefaultRules key)

/-- Problems one by one in place of others. -/
abbrev Soften : List Problem → List Problem → Prop :=
  List.Forall₂ Problem.Softens

theorem Soften.refl (problems : List Problem) : Soften problems problems :=
  List.forall₂_same.mpr fun problem _ => .same problem

theorem Soften.append {first second twin more : List Problem} (early : Soften first twin)
    (late : Soften second more) : Soften (first ++ second) (twin ++ more) :=
  List.rel_append early late

/-- What lies below the sets of interest on two stacks, counters aside. -/
inductive Ground : List RuleSet → List RuleSet → Prop
  | bare : Ground [] []
  | emptied {pool : Pool} (barren : pool.alternatives = []) : Ground [] [.plain pool]
  | level (top : RuleSet) (below rest : List RuleSet) : Ground (top :: below) (top :: rest)

/-- Two stacks with the same sets over a ground, in a given number. -/
structure Levels (count : Nat) (sets twin : List RuleSet) : Prop where
  split : ∃ upper low ground, sets = upper ++ low ∧ twin = upper ++ ground ∧ upper.length = count ∧
    Ground low ground

namespace Levels

variable {count : Nat} {sets twin : List RuleSet}

theorem cons (levels : Levels count sets twin) (set : RuleSet) :
    Levels (count + 1) (set :: sets) (set :: twin) := by
  obtain ⟨upper, low, ground, rfl, rfl, rfl, stands⟩ := levels.split
  exact ⟨set :: upper, low, ground, rfl, rfl, rfl, stands⟩

/-- Above the ground there is a set to take off. -/
theorem uncons (levels : Levels (count + 1) sets twin) : ∃ set rest twinRest,
    sets = set :: rest ∧ twin = set :: twinRest ∧ Levels count rest twinRest := by
  obtain ⟨upper, low, ground, rfl, rfl, length, stands⟩ := levels.split
  obtain ⟨set, upper, rfl⟩ := List.exists_cons_of_length_eq_add_one length
  exact ⟨set, upper ++ low, upper ++ ground, rfl, rfl, upper, low, ground, rfl, rfl,
    Nat.succ.inj length, stands⟩

/-- The same set is on top, or one without alternatives stands for an empty stack. -/
theorem tops (levels : Levels count sets twin) : sets.head? = twin.head? ∨
    ∃ pool : Pool, pool.alternatives = [] ∧ sets = [] ∧ twin = [.plain pool] := by
  obtain ⟨upper, low, ground, rfl, rfl, -, stands⟩ := levels.split
  cases upper with
  | cons set upper => exact .inl rfl
  | nil =>
    cases stands with
    | bare => exact .inl rfl
    | emptied barren => exact .inr ⟨_, barren, rfl, rfl⟩
    | level top below rest => exact .inl rfl

end Levels

/-- A set without alternatives offers nothing. -/
theorem RuleSet.select?_barren {set : RuleSet} {pool : Pool} (barren : pool.alternatives = [])
    (plain : set.clear = .plain pool) (rolls : Rolls) (path : List String) :
    set.select? rolls path = none := by
  have nothing (set : RuleSet) (barren : set.pool.alternatives = []) :
      set.selectDefault? rolls = none := by
    simp only [selectDefault?, barren, List.length_nil, List.getElem?_nil, Option.map_none]
  cases set with
  | conditional condition branches own => cases plain
  | plain own =>
    have none : own.alternatives = [] := by
      cases plain
      exact barren
    cases path with
    | nil => exact nothing _ none
    | cons key rest => exact nothing _ none

/-- Of two symbols with the same sets over some ground, selections answer the same, but for an empty
stack. -/
theorem Symbol.softens_selectUnlogged {symbol twin : Symbol} {key : String} {count : Nat}
    (name : symbol.key = key) (twinName : twin.key = key)
    (levels : Levels count symbol.sets twin.sets) (path : List String) (rolls : Rolls) :
    let one := symbol.selectUnlogged path rolls
    let other := twin.selectUnlogged path rolls
    one.rule.getD (placeholder key) = other.rule.getD (placeholder key) ∧
      Soften one.problems other.problems ∧ one.rolls = other.rolls := by
  intro one other
  rcases levels.tops with tops | ⟨pool, barren, empty, single⟩
  · have answers : one.answer = other.answer :=
      answer_selectUnlogged (name.trans twinName.symm) tops path rolls
    simp only [Selection.answer, Prod.mk.injEq] at answers
    obtain ⟨rule, problems, rolls⟩ := answers
    exact ⟨by rw [rule], problems ▸ .refl _, rolls⟩
  · have stack : symbol.stack = [] := List.map_eq_nil_iff.mp empty
    obtain ⟨top, twinStack, plain⟩ := List.map_eq_singleton_iff.mp single
    have nothing := RuleSet.select?_barren barren plain rolls path
    simp only [one, other, selectUnlogged, stack, twinStack, nothing, name, twinName]
    exact ⟨rfl, .cons (.emptied key) .nil, trivial⟩

namespace Grammar

/-- A grammar, and one that has the same sets on its stacks above some ground. Both are on their
own, and both have a symbol of a name or neither has. -/
structure Mirrors (above : String → Nat) (live shown : Grammar) : Prop where
  levels (key : String) : Levels (above key) (live.setsOn key) (shown.setsOn key)
  present (key : String) : (live.mark? key).isSome = (shown.mark? key).isSome
  named : live.Named
  twinNamed : shown.Named
  modifiers : live.modifiers = shown.modifiers
  settings : live.settings = shown.settings
  alone : live.subgrammars = []
  twinAlone : shown.subgrammars = []

/-- For a grammar on its own, a selection would read the top of the stack. -/
theorem ruleSet?_map_clear {grammar : Grammar} (alone : grammar.subgrammars = []) (key : String) :
    (grammar.ruleSet? key).map RuleSet.clear = (grammar.setsOn key).head? := by
  rw [ruleSet?, setsOn, alone]
  cases grammar.symbol? key with
  | none => rfl
  | some symbol => exact symbol.top?_map_clear

namespace Mirrors

variable {above : String → Nat} {live shown : Grammar} (mirrors : live.Mirrors above shown)
  (key : String)
include mirrors

/-- Both grammars have a symbol of a name, or neither has. -/
theorem symbols : live.symbol? key = none ∧ shown.symbol? key = none ∨
    ∃ symbol twin, live.symbol? key = some symbol ∧ shown.symbol? key = some twin := by
  have present := mirrors.present key
  rw [mark?, mark?, Option.isSome_map, Option.isSome_map] at present
  cases found : live.symbol? key with
  | none =>
    rw [found] at present
    exact .inl ⟨rfl, Option.isNone_iff_eq_none.mp (Option.isSome_eq_false_iff.mp present.symm)⟩
  | some symbol =>
    rw [found] at present
    obtain ⟨twin, foundToo⟩ := Option.isSome_iff_exists.mp present.symm
    exact .inr ⟨symbol, twin, rfl, foundToo⟩

theorem push (alternatives : List String) :
    (live.push key alternatives).Mirrors (Function.update above key (above key + 1))
      (shown.push key alternatives) where
  levels other := by
    have same : live.pushedSet alternatives = shown.pushedSet alternatives := by
      rw [pushedSet, pushedSet, mirrors.settings]
    rw [setsOn_push, setsOn_push, Function.update_apply, same]
    split
    · exact (mirrors.levels key).cons _
    · exact mirrors.levels other
  present other := by
    rw [mark?_push, mark?_push]
    split
    · rfl
    · exact mirrors.present other
  named := mirrors.named.push key alternatives
  twinNamed := mirrors.twinNamed.push key alternatives
  modifiers := mirrors.modifiers
  settings := mirrors.settings
  alone := mirrors.alone
  twinAlone := mirrors.twinAlone

/-- Above the ground a pop takes the same off both. -/
theorem pop (held : 0 < above key) : ∃ set twin next twinNext,
    live.pop key = .ok (set, next) ∧ shown.pop key = .ok (twin, twinNext) ∧
      next.Mirrors (Function.update above key (above key - 1)) twinNext := by
  obtain ⟨count, counted⟩ := Nat.exists_eq_add_one_of_ne_zero (Nat.ne_of_gt held)
  have levels := mirrors.levels key
  rw [counted] at levels
  obtain ⟨top, rest, twinRest, sets, twinSets, below⟩ := levels.uncons
  obtain ⟨set, next, popped, left⟩ := exists_pop_of_setsOn sets
  obtain ⟨twin, twinNext, poppedToo, twinLeft⟩ := exists_pop_of_setsOn twinSets
  refine ⟨set, twin, next, twinNext, popped, poppedToo, ?_⟩
  exact {
    levels := fun other => by
      rw [Function.update_apply]
      split
      · next same =>
        rw [same, left, twinLeft, counted]
        exact below
      · next different =>
        have before := setsOn_of_pop popped other
        have beforeToo := setsOn_of_pop poppedToo other
        rw [if_neg different] at before beforeToo
        rw [← before, ← beforeToo]
        exact mirrors.levels other
    present := fun other => by
      rw [mark?_of_pop popped, mark?_of_pop poppedToo]
      exact mirrors.present other
    named := mirrors.named.of_pop popped
    twinNamed := mirrors.twinNamed.of_pop poppedToo
    modifiers := by rw [modifiers_of_pop popped, modifiers_of_pop poppedToo, mirrors.modifiers]
    settings := by rw [settings_of_pop popped, settings_of_pop poppedToo, mirrors.settings]
    alone := (subgrammars_of_pop popped).trans mirrors.alone
    twinAlone := (subgrammars_of_pop poppedToo).trans mirrors.twinAlone }

/-- Selections answer the same, but for an empty stack. -/
theorem select (origin : Option Place) (path : List String) (rolls : Rolls) :
    let one := live.select key origin path rolls
    let other := shown.select key origin path rolls
    one.rule.getD (placeholder key) = other.rule.getD (placeholder key) ∧
      Soften one.problems other.problems ∧ one.rolls = other.rolls ∧
      one.grammar.Mirrors above other.grammar := by
  intro one other
  have left : one.grammar.Mirrors above other.grammar := {
    levels := fun name => by
      rw [setsOn_select, setsOn_select]
      exact mirrors.levels name
    present := fun name => by
      rw [mark?_select, mark?_select]
      exact mirrors.present name
    named := mirrors.named.select key origin path rolls
    twinNamed := mirrors.twinNamed.select key origin path rolls
    modifiers := by rw [modifiers_select, modifiers_select, mirrors.modifiers]
    settings := by rw [settings_select, settings_select, mirrors.settings]
    alone := subgrammars_select_of_alone live key origin path rolls mirrors.alone
    twinAlone := subgrammars_select_of_alone shown key origin path rolls mirrors.twinAlone }
  suffices answers : one.rule.getD (placeholder key) = other.rule.getD (placeholder key) ∧
      Soften one.problems other.problems ∧ one.rolls = other.rolls from
    ⟨answers.1, answers.2.1, answers.2.2, left⟩
  clear left
  simp only [one, other, Grammar.select]
  rcases mirrors.symbols key with ⟨missing, missingToo⟩ | ⟨symbol, twin, found, foundToo⟩
  · simp only [missing, missingToo, mirrors.alone, mirrors.twinAlone, selectAmong?]
    exact ⟨trivial, .refl _, trivial⟩
  · have name := mirrors.named.key_of_symbol? found
    have twinName := mirrors.twinNamed.key_of_symbol? foundToo
    have levels := mirrors.levels key
    simp only [setsOn, found, foundToo, Option.map_some, Option.getD_some] at levels
    simp only [found, foundToo]
    exact @Symbol.softens_selectUnlogged { symbol with log := origin :: symbol.log }
      { twin with log := origin :: twin.log } key _ name twinName levels path rolls

end Mirrors

end Grammar

end TextGrammar
