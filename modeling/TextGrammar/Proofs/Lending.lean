import TextGrammar.Proofs.Histories
import TextGrammar.Proofs.Reached
import TextGrammar.Proofs.Scoping

/-! # What subgrammars lend

A grammar selects from its subgrammars what it lacks itself. This counts a use in the set on top of
the symbol that lends, and nothing else that is done with the grammar reaches into a subgrammar:
pushes, pops and the ends of tags go to the grammar's own symbols, and so does every selection of a
name once something was pushed onto it.
-/

namespace TextGrammar

open Expansion

/-- What becomes of a symbol that is selected from on behalf of another grammar: uses are counted
in the set on top of its stack, and all else is as it was. -/
structure Symbol.Lent (symbol later : Symbol) : Prop where
  same : later = { symbol with stack := later.stack }
  top : later.top?.map RuleSet.clear = symbol.top?.map RuleSet.clear
  below : later.stack.tail = symbol.stack.tail

namespace Symbol.Lent

variable {first second third : Symbol}

theorem refl (symbol : Symbol) : symbol.Lent symbol :=
  ⟨rfl, rfl, rfl⟩

theorem trans (early : first.Lent second) (late : second.Lent third) : first.Lent third where
  same := by
    rw [late.same, early.same]
  top := late.top.trans early.top
  below := late.below.trans early.below

theorem selectUnlogged (symbol : Symbol) (path : List String) (rolls : Rolls) :
    symbol.Lent (symbol.selectUnlogged path rolls).symbol := by
  cases stack : symbol.stack with
  | nil =>
    simp only [Symbol.selectUnlogged, stack]
    exact refl symbol
  | cons top below =>
    cases selects : top.select? rolls path with
    | none =>
      simp only [Symbol.selectUnlogged, stack, selects]
      exact refl symbol
    | some selected =>
      simp only [Symbol.selectUnlogged, stack, selects]
      have counted := RuleSet.clear_select? selects
      refine ⟨rfl, ?_, ?_⟩
      · simp only [top?, stack, List.head?_cons, Option.map_some, counted]
      · simp only [stack, List.tail_cons]

end Symbol.Lent

namespace Grammar

/-- What becomes of a grammar that lends some names: uses are counted in the symbols of these names,
and all else is as it was. -/
structure Lends (names : String → Prop) (sub later : Grammar) : Prop where
  modifiers : later.modifiers = sub.modifiers
  settings : later.settings = sub.settings
  subgrammars : later.subgrammars = sub.subgrammars
  symbolNames : Keyed.Ascending sub.symbols → later.symbolNames = sub.symbolNames
  lent : ∀ key, Option.Rel Symbol.Lent (sub.symbol? key) (later.symbol? key)
  others : ∀ key, ¬ names key → later.symbol? key = sub.symbol? key

namespace Lends

variable {names more : String → Prop} {first second third : Grammar}

theorem refl (names : String → Prop) (sub : Grammar) : sub.Lends names sub where
  modifiers := rfl
  settings := rfl
  subgrammars := rfl
  symbolNames _ := rfl
  lent key := by
    cases sub.symbol? key with
    | none => exact .none
    | some symbol => exact .some (.refl symbol)
  others _ _ := rfl

theorem mono (lends : first.Lends names second) (weakens : ∀ key, names key → more key) :
    first.Lends more second :=
  { lends with others := fun key spared => lends.others key (mt (weakens key) spared) }

theorem trans (early : first.Lends names second) (late : second.Lends names third) :
    first.Lends names third where
  modifiers := late.modifiers.trans early.modifiers
  settings := late.settings.trans early.settings
  subgrammars := late.subgrammars.trans early.subgrammars
  symbolNames ascending := by
    have same : Keyed.keys second.symbols = Keyed.keys first.symbols :=
      early.symbolNames ascending
    rw [Keyed.ascending_iff_keys, ← same, ← Keyed.ascending_iff_keys] at ascending
    exact (late.symbolNames ascending).trans same
  lent key := by
    have begins := early.lent key
    have goesOn := late.lent key
    generalize first.symbol? key = one, second.symbol? key = two, third.symbol? key = three
      at begins goesOn
    cases begins with
    | none => exact goesOn
    | some counted =>
      cases goesOn with
      | some countedAgain => exact .some (counted.trans countedAgain)
  others key spared := (late.others key spared).trans (early.others key spared)

/-- A selection on behalf of another grammar. -/
theorem selectUnlogged {sub : Grammar} {key : String} {symbol : Symbol}
    (found : sub.symbol? key = some symbol) (path : List String) (rolls : Rolls) :
    sub.Lends (· = key) { sub with
      symbols := Keyed.insert key (symbol.selectUnlogged path rolls).symbol sub.symbols } where
  modifiers := rfl
  settings := rfl
  subgrammars := rfl
  symbolNames ascending := by
    obtain ⟨before, after, split, inserted⟩ := Keyed.insert_of_lookup ascending found
      (symbol.selectUnlogged path rolls).symbol
    simp only [Grammar.symbolNames, inserted]
    simp only [split, Keyed.keys, List.map_append, List.map_cons]
  lent other := by
    rw [symbol?_insert]
    split
    · next same =>
      rw [same, found]
      exact .some (.selectUnlogged symbol path rolls)
    · exact (refl (· = key) sub).lent other
  others other spared := by
    rw [symbol?_insert, if_neg spared]

end Lends

/-- What becomes of a grammar that borrows some names: its modifiers and settings stay, and its
subgrammars lend these names at most. -/
structure Borrows (names : String → Prop) (grammar later : Grammar) : Prop where
  modifiers : later.modifiers = grammar.modifiers
  settings : later.settings = grammar.settings
  subgrammars : List.Forall₂ (Lends names) grammar.subgrammars later.subgrammars

namespace Borrows

variable {names more : String → Prop} {first second third : Grammar}

theorem of_subgrammars (modifiers : second.modifiers = first.modifiers)
    (settings : second.settings = first.settings)
    (subgrammars : second.subgrammars = first.subgrammars) : first.Borrows names second where
  modifiers := modifiers
  settings := settings
  subgrammars := by
    rw [subgrammars]
    exact List.forall₂_same.mpr fun sub _ => .refl names sub

theorem mono (borrows : first.Borrows names second) (weakens : ∀ key, names key → more key) :
    first.Borrows more second :=
  { borrows with subgrammars := borrows.subgrammars.imp fun _ _ lends => lends.mono weakens }

theorem trans (early : first.Borrows names second) (late : second.Borrows names third) :
    first.Borrows names third where
  modifiers := late.modifiers.trans early.modifiers
  settings := late.settings.trans early.settings
  subgrammars := by
    have composed {one two three : List Grammar} (begins : List.Forall₂ (Lends names) one two)
        (goesOn : List.Forall₂ (Lends names) two three) :
        List.Forall₂ (Lends names) one three := by
      induction begins generalizing three with
      | nil => exact goesOn
      | cons lends _ ih =>
        cases goesOn with
        | cons lendsAgain rest => exact .cons (lends.trans lendsAgain) (ih rest)
    exact composed early.subgrammars late.subgrammars

/-- A selection borrows its name if the grammar lacks it. -/
theorem select (grammar : Grammar) (key : String) (origin : Option Place) (path : List String)
    (rolls : Rolls) :
    grammar.Borrows (fun other => other = key ∧ grammar.symbol? other = none)
      (grammar.select key origin path rolls).grammar := by
  refine ⟨modifiers_select .., settings_select .., ?_⟩
  have untouched (names : String → Prop) :
      List.Forall₂ (Lends names) grammar.subgrammars grammar.subgrammars :=
    List.forall₂_same.mpr fun sub _ => .refl names sub
  simp only [Grammar.select]
  cases found : grammar.symbol? key with
  | some symbol => exact untouched _
  | none =>
    cases selects : selectAmong? key path rolls grammar.subgrammars with
    | none => exact untouched _
    | some outcome =>
      obtain ⟨before, sub, after, symbol, split, owns, picks, left⟩ := eq_of_selectAmong? selects
      have lends : sub.Lends (fun other => other = key ∧ grammar.symbol? other = none) _ :=
        (Lends.selectUnlogged owns path rolls).mono fun other same => ⟨same, same ▸ found⟩
      have others (subs : List Grammar) := List.forall₂_same.mpr fun sub (_ : sub ∈ subs) =>
        Lends.refl (fun other => other = key ∧ grammar.symbol? other = none) sub
      simp only [split, left, picks]
      exact List.rel_append (others before) (.cons lends (others after))

end Borrows

end Grammar

/-- Whether a name is selected while the grammar lacks it: it lacks the name at first, and nothing
is pushed onto the name before the selection. -/
def Borrowed (grammar : Grammar) (events : List Event) (key : String) : Prop :=
  grammar.symbol? key = none ∧ ∃ before rule after,
    events = before ++ .selected key rule :: after ∧
      ∀ event ∈ before, event.pushesOnto key = false

namespace Expansion.Step

variable {source target : Expansion} {event : Event} (step : Step source event target)
include step

theorem borrows : source.grammar.Borrows
    (fun key => source.grammar.symbol? key = none ∧ ∃ rule, event = .selected key rule)
    target.grammar := by
  cases step with
  | took _ popped =>
    exact .of_subgrammars (Grammar.modifiers_of_pop popped) (Grammar.settings_of_pop popped)
      (Grammar.subgrammars_of_pop popped)
  | selected key origin path =>
    refine (Grammar.Borrows.select source.grammar key origin path source.rolls).mono ?_
    rintro other ⟨rfl, missing⟩
    exact ⟨missing, _, rfl⟩
  | _ => exact .of_subgrammars rfl rfl rfl

/-- What is borrowed after a step is borrowed over all. -/
theorem borrowed {events : List Event} {key : String}
    (later : Borrowed target.grammar events key) :
    Borrowed source.grammar (event :: events) key := by
  obtain ⟨missing, before, rule, after, split, unpushed⟩ := later
  have absent : event.keeps key (source.grammar.symbol? key).isSome = false := by
    rw [← step.present key, missing]
    rfl
  have lacks : source.grammar.symbol? key = none := by
    cases found : source.grammar.symbol? key with
    | none => rfl
    | some symbol =>
      rw [found] at absent
      cases event <;> contradiction
  have first : event.pushesOnto key = false := by
    rw [lacks] at absent
    cases event with
    | pushed site other set => exact absent
    | _ => rfl
  refine ⟨lacks, event :: before, rule, after, ?_, List.forall_mem_cons.mpr ⟨first, unpushed⟩⟩
  rw [split, List.cons_append]

end Expansion.Step

theorem Session.Chain.borrows {source target : Session} {events : List Event}
    (chain : source.Chain events target) :
    source.grammar.Borrows (Borrowed source.grammar events) target.grammar := by
  induction chain with
  | done session => exact .of_subgrammars rfl rfl rfl
  | cons first rest ih =>
    refine (first.borrows.mono ?_).trans (ih.mono fun key => first.borrowed)
    rintro key ⟨missing, rule, rfl⟩
    exact ⟨missing, [], rule, _, rfl, List.forall_mem_nil _⟩

/-- Whatever is done with a grammar, clearing apart, and however it ends, nothing changes in its
subgrammars but counters: those in the top sets of the symbols whose names were selected while the
grammar itself had none. Its own modifiers, its settings and its list of subgrammars stay too. -/
theorem subgrammars_lend_only (session : Session) {operation : Operation}
    (lasting : operation.clears = false) :
    session.grammar.Borrows (Borrowed session.grammar (operation.events session))
      (operation.run session).2.grammar :=
  (chain_operation lasting session).borrows

/-- A house that lends a room and a bed, to a guest who brings a bed of their own. -/
def lodging : Session where
  grammar := { Grammar.ofWritten [] {} with
    subgrammars := [.ofWritten [("bed", .one "hard"), ("room", .one "attic")] {}] }
  rolls := { stream := fun _ => default }

/-- A use of the room is counted in the subgrammar, and none of the bed. -/
theorem subgrammars_lend_only_lodging :
    (Operation.expand "#room# [bed:soft]#bed#").clears = false ∧
      lodging.grammar.Borrows
        (Borrowed lodging.grammar ((Operation.expand "#room# [bed:soft]#bed#").events lodging))
        ((Operation.expand "#room# [bed:soft]#bed#").run lodging).2.grammar ∧
      ((Operation.expand "#room# [bed:soft]#bed#").run lodging).2.grammar.subgrammars.map
          (fun sub => sub.symbols.map fun (key, symbol) => (key, symbol.stack.map (·.pool.uses))) =
        [[("bed", [[0]]), ("room", [[1]])]] := by
  have lasting : (Operation.expand "#room# [bed:soft]#bed#").clears = false := rfl
  exact ⟨lasting, subgrammars_lend_only lodging lasting, by cbv⟩

end TextGrammar
