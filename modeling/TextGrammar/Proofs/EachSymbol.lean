import TextGrammar.Proofs.Clearing

/-! # What holds of every symbol

Whatever is done with a grammar, is done to one symbol at a time, or by clearing to all of them.
What holds of the symbols that pushes create, and survives each change of a symbol, therefore holds
of every symbol for as long as the grammar is used, in subgrammars too. It may speak of the name
that a symbol stands under, and of the falloff of the settings, which pushed sets have.
-/

namespace TextGrammar

open Expansion

/-- What holds of the symbols that pushes create, and what nothing that is done with a symbol
ends. -/
structure Symbol.Lasting (holds : Float → String → Symbol → Prop) : Prop where
  pushed (falloff : Float) (key : String) (alternatives : List String) :
    holds falloff key (.pushed key (.ofAlternatives falloff alternatives))
  push {falloff : Float} {key : String} {symbol : Symbol} (still : holds falloff key symbol)
    (alternatives : List String) :
    holds falloff key (symbol.push (.ofAlternatives falloff alternatives))
  drop {falloff : Float} {key : String} {symbol : Symbol} (still : holds falloff key symbol) :
    holds falloff key { symbol with stack := symbol.stack.tail }
  log {falloff : Float} {key : String} {symbol : Symbol} (still : holds falloff key symbol)
    (origin : Option Place) : holds falloff key { symbol with log := origin :: symbol.log }
  select {falloff : Float} {key : String} {symbol : Symbol} (still : holds falloff key symbol)
    (path : List String) (rolls : Rolls) :
    holds falloff key (symbol.selectUnlogged path rolls).symbol
  clear {falloff : Float} {key : String} {symbol : Symbol} (still : holds falloff key symbol) :
    holds falloff key symbol.clear

namespace Grammar

/-- Something holds of every symbol under its name, in the grammar and in its subgrammars, each with
the falloff of its own settings. -/
def EachSymbol (holds : Float → String → Symbol → Prop) (grammar : Grammar) : Prop :=
  ∀ owner ∈ grammar :: grammar.subgrammars, ∀ entry ∈ owner.symbols,
    holds owner.settings.falloff entry.1 entry.2

theorem eachSymbol_ofWritten {holds : Float → String → Symbol → Prop} {rules : WrittenGrammar}
    {settings : Settings} (each : ∀ entry ∈ rules, holds settings.falloff entry.1
      (.declared entry.1 (.ofWritten settings.falloff entry.2))) :
    (ofWritten rules settings).EachSymbol holds :=
  List.forall_mem_cons.mpr ⟨List.forall_mem_map.mpr each, List.forall_mem_nil _⟩

section

variable {holds : Float → String → Symbol → Prop} {grammar : Grammar} {key : String}
  (each : grammar.EachSymbol holds)
include each

theorem EachSymbol.own :
    ∀ entry ∈ grammar.symbols, holds grammar.settings.falloff entry.1 entry.2 :=
  each grammar List.mem_cons_self

theorem EachSymbol.symbol {symbol : Symbol} (found : grammar.symbol? key = some symbol) :
    holds grammar.settings.falloff key symbol :=
  each.own (key, symbol) (Keyed.mem_of_lookup found)

theorem EachSymbol.insert {symbol : Symbol} (fits : holds grammar.settings.falloff key symbol) :
    { grammar with symbols := Keyed.insert key symbol grammar.symbols }.EachSymbol holds := by
  obtain ⟨own, subs⟩ := List.forall_mem_cons.mp each
  exact List.forall_mem_cons.mpr ⟨Keyed.forall_mem_insert own fits, subs⟩

theorem EachSymbol.addModifiers (modifiers : List (String × Modifier)) :
    (grammar.addModifiers modifiers).EachSymbol holds := by
  obtain ⟨own, subs⟩ := List.forall_mem_cons.mp each
  exact List.forall_mem_cons.mpr ⟨own, subs⟩

theorem EachSymbol.addSubgrammar {sub : Grammar} (eachSub : sub.EachSymbol holds) :
    (grammar.addSubgrammar sub).EachSymbol holds := by
  obtain ⟨own, subs⟩ := List.forall_mem_cons.mp each
  exact List.forall_mem_cons.mpr
    ⟨own, List.forall_mem_append.mpr ⟨subs, List.forall_mem_singleton.mpr eachSub.own⟩⟩

/-- Symbols that are laid over others come under other settings. -/
theorem EachSymbol.merge {other : Grammar} (eachOther : other.EachSymbol holds)
    (comes : ∀ key symbol, holds other.settings.falloff key symbol →
      holds grammar.settings.falloff key symbol) : (grammar.merge other).EachSymbol holds := by
  obtain ⟨own, subs⟩ := List.forall_mem_cons.mp each
  obtain ⟨ownOther, subsOther⟩ := List.forall_mem_cons.mp eachOther
  refine List.forall_mem_cons.mpr ⟨fun entry member => ?_,
    List.forall_mem_append.mpr ⟨subs, subsOther⟩⟩
  rcases Keyed.mem_overlay member with newer | older
  · exact comes entry.1 entry.2 (ownOther entry newer)
  · exact own entry older

end

end Grammar

namespace Symbol.Lasting

open Grammar

variable {holds : Float → String → Symbol → Prop} (lasting : Lasting holds)
  {grammar next : Grammar} (each : grammar.EachSymbol holds)
include lasting each

theorem eachSymbol_push (key : String) (alternatives : List String) :
    (grammar.push key alternatives).EachSymbol holds := by
  refine each.insert ?_
  cases found : grammar.symbol? key with
  | none => exact lasting.pushed _ key alternatives
  | some symbol => exact lasting.push (each.symbol found) alternatives

theorem eachSymbol_of_pop {key : String} {set : RuleSet}
    (popped : grammar.pop key = .ok (set, next)) : next.EachSymbol holds := by
  obtain ⟨symbol, below, found, stack, rfl⟩ := eq_of_pop popped
  have left := lasting.drop (each.symbol found)
  rw [stack] at left
  exact each.insert left

omit each in
/-- The one subgrammar that is selected from, has the symbol after the selection. -/
theorem forall_selectAmong? {key : String} {path : List String} {rolls : Rolls}
    {subs left : List Grammar} {selection : Selection}
    (each : ∀ sub ∈ subs, ∀ entry ∈ sub.symbols, holds sub.settings.falloff entry.1 entry.2)
    (success : selectAmong? key path rolls subs = some (selection, left)) :
    ∀ sub ∈ left, ∀ entry ∈ sub.symbols, holds sub.settings.falloff entry.1 entry.2 := by
  obtain ⟨before, sub, after, symbol, rfl, found, rfl, rfl⟩ := eq_of_selectAmong? success
  obtain ⟨early, rest⟩ := List.forall_mem_append.mp each
  obtain ⟨first, late⟩ := List.forall_mem_cons.mp rest
  have held := first (key, symbol) (Keyed.mem_of_lookup found)
  have selected := Keyed.forall_mem_insert first (lasting.select held path rolls)
  exact List.forall_mem_append.mpr ⟨early, List.forall_mem_cons.mpr ⟨selected, late⟩⟩

theorem eachSymbol_select (key : String) (origin : Option Place) (path : List String)
    (rolls : Rolls) : (grammar.select key origin path rolls).grammar.EachSymbol holds := by
  simp only [Grammar.select]
  cases found : grammar.symbol? key with
  | some symbol =>
    exact each.insert (lasting.select (lasting.log (each.symbol found) origin) path rolls)
  | none =>
    cases selects : selectAmong? key path rolls grammar.subgrammars with
    | none => exact each
    | some outcome =>
      obtain ⟨own, subs⟩ := List.forall_mem_cons.mp each
      exact List.forall_mem_cons.mpr ⟨own, lasting.forall_selectAmong? subs selects⟩

theorem eachSymbol_clear : grammar.clear.EachSymbol holds := by
  have cleared (owner : Grammar)
      (held : ∀ entry ∈ owner.symbols, holds owner.settings.falloff entry.1 entry.2) :
      ∀ entry ∈ owner.clear.symbols, holds owner.clear.settings.falloff entry.1 entry.2 := by
    rw [clear_eq]
    exact List.forall_mem_map.mpr fun entry member =>
      lasting.clear (held entry (List.mem_filter.mp member).1)
  obtain ⟨own, subs⟩ := List.forall_mem_cons.mp each
  refine List.forall_mem_cons.mpr ⟨cleared grammar own, ?_⟩
  rw [clear_eq, clearAll_eq_map]
  exact List.forall_mem_map.mpr fun sub member => cleared sub (subs sub member)

omit each in
/-- What is lasting, holds of every symbol of a grammar in use if it did at first. -/
theorem kept : Kept fun grammar next => grammar.EachSymbol holds → next.EachSymbol holds where
  refl _ := id
  trans early late := late ∘ early
  step step each := by
    cases step with
    | pushed site key alternatives => exact lasting.eachSymbol_push each key alternatives
    | took _ popped => exact lasting.eachSymbol_of_pop each popped
    | selected key origin path => exact lasting.eachSymbol_select each key origin path _
    | _ => exact each
  clear _ each := lasting.eachSymbol_clear each

end Symbol.Lasting

end TextGrammar
