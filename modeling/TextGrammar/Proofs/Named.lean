import TextGrammar.Proofs.Reached

/-! # Symbols stand under their own names

A symbol knows its name, and reports an empty stack under it. Whatever is done with a grammar, the
name that a symbol knows is the one that it stands under, in subgrammars too; so a placeholder for
an empty stack shows the name that was asked for.
-/

namespace TextGrammar

open Expansion

namespace Symbol

theorem key_selectUnlogged (symbol : Symbol) (path : List String) (rolls : Rolls) :
    (symbol.selectUnlogged path rolls).symbol.key = symbol.key := by
  change (symbol.selectUnlogged path rolls).symbol.bare.key = symbol.bare.key
  rw [bare_selectUnlogged]

/-- A symbol keeps its name. -/
theorem lasting_key : Lasting fun _ key symbol => symbol.key = key where
  pushed _ _ _ := rfl
  push still _ := still
  drop still := still
  log still _ := still
  select still path rolls := (key_selectUnlogged _ path rolls).trans still
  clear still := still

end Symbol

namespace Grammar

/-- Every symbol of a map has the name that it stands under. -/
def Labelled (symbols : List (String × Symbol)) : Prop :=
  ∀ entry ∈ symbols, entry.2.key = entry.1

/-- Every symbol has the name that it stands under, in the grammar and in its subgrammars. -/
def Named (grammar : Grammar) : Prop :=
  ∀ owner ∈ grammar :: grammar.subgrammars, Labelled owner.symbols

theorem Labelled.lookup {symbols : List (String × Symbol)} {key : String} {symbol : Symbol}
    (labelled : Labelled symbols) (found : symbols.lookup key = some symbol) : symbol.key = key :=
  labelled (key, symbol) (Keyed.mem_of_lookup found)

namespace Named

variable {grammar next : Grammar} {key : String} (named : grammar.Named)
include named

theorem labelled : Labelled grammar.symbols :=
  named grammar List.mem_cons_self

theorem key_of_symbol? {symbol : Symbol} (found : grammar.symbol? key = some symbol) :
    symbol.key = key :=
  named.labelled.lookup found

theorem push (key : String) (alternatives : List String) :
    (grammar.push key alternatives).Named :=
  Symbol.lasting_key.eachSymbol_push named key alternatives

theorem of_pop {set : RuleSet} (popped : grammar.pop key = .ok (set, next)) : next.Named :=
  Symbol.lasting_key.eachSymbol_of_pop named popped

theorem select (key : String) (origin : Option Place) (path : List String) (rolls : Rolls) :
    (grammar.select key origin path rolls).grammar.Named :=
  Symbol.lasting_key.eachSymbol_select named key origin path rolls

end Named

end Grammar

theorem kept_named : Kept fun grammar next => grammar.Named → next.Named :=
  Symbol.lasting_key.kept

namespace Grammar

/-- In a grammar that nothing was done with yet, symbols stand under the names they were declared
with. -/
theorem Pristine.named {grammar : Grammar} (pristine : grammar.Pristine) : grammar.Named := by
  have labelled {owner : Grammar} (pristine : owner.Pristine) : Labelled owner.symbols := by
    cases pristine with
    | intro _ declared _ _ => exact fun entry member => by rw [declared entry member]; rfl
  exact List.forall_mem_cons.mpr
    ⟨labelled pristine, fun sub member => labelled (pristine.subgrammars sub member)⟩

theorem Reached.named {grammar : Grammar} (reached : grammar.Reached) : grammar.Named :=
  reached.eachSymbol Symbol.lasting_key fun built _ => built.pristine.named

end Grammar

end TextGrammar
