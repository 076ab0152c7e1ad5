import Mathlib
import TextGrammar.Proofs.Reached

/-! # Branches that are maps

Rules that are read from plain data have maps for branches at every level, and so have the sets that
are made from such rules. What a grammar shows on its stacks keeps them, so a grammar that is read
from text can be reached, and what it shows later can be read again.
-/

namespace TextGrammar

/-- The branches of written rules are maps, at every level. -/
inductive WrittenRules.Mapped : WrittenRules → Prop
  | one (rule : String) : Mapped (.one rule)
  | many (rules : List String) : Mapped (.many rules)
  | conditional (condition : String) {branches : List (String × WrittenRules)}
      (defaults : List String) (ascending : Keyed.Ascending branches)
      (inward : ∀ entry ∈ branches, Mapped entry.2) :
      Mapped (.conditional condition branches defaults)

namespace Datum

open Keyed

theorem mapped_ofEntries {named : List (String × WrittenRules)}
    (each : ∀ entry ∈ named, entry.2.Mapped) : ∀ entry ∈ ofEntries named, entry.2.Mapped := by
  intro entry member
  rcases mem_overlay member with listed | none
  · exact each entry listed
  · contradiction

mutual

/-- The branches of rules that are read are maps. -/
theorem mapped_rules? : (value : Datum) → {rules : WrittenRules} → value.rules? = some rules →
    rules.Mapped
  | .text rule, _, read => by
    cases read
    exact .one rule
  | .list items, _, read => by
    simp only [rules?] at read
    split at read
    · cases read
      exact .many _
    · exact mapped_positional? items read
  | .table entries, _, read => by
    simp only [rules?, Option.bind_eq_bind, Option.bind_eq_some_iff] at read
    obtain ⟨_, _, _, _, condition, _, _, _, defaults, _, _, _, branches, among, made⟩ := read
    cases made
    obtain ⟨ascending, inward⟩ := mapped_branchesAmong? entries among
    exact .conditional condition defaults ascending inward
  | .nothing, _, read | .truth _, _, read | .natural _, _, read | .number _, _, read
  | .letter _, _, read | .present _, _, read => by contradiction

theorem mapped_positional? (items : List Datum) {rules : WrittenRules}
    (read : positional? items = some rules) : rules.Mapped := by
  rw [positional?.eq_def] at read
  split at read
  · next condition inside =>
    simp only [Option.bind_eq_bind, Option.bind_eq_some_iff] at read
    obtain ⟨_, found, made⟩ := read
    cases made
    obtain ⟨ascending, inward⟩ := mapped_branches? inside found
    exact .conditional condition [] ascending inward
  · next condition inside listed =>
    simp only [Option.bind_eq_bind, Option.bind_eq_some_iff] at read
    obtain ⟨_, found, defaults, _, made⟩ := read
    cases made
    obtain ⟨ascending, inward⟩ := mapped_branches? inside found
    exact .conditional condition defaults ascending inward
  · contradiction

theorem mapped_branches? : (value : Datum) → {branches : List (String × WrittenRules)} →
    value.branches? = some branches → Ascending branches ∧ ∀ entry ∈ branches, entry.2.Mapped
  | .table entries, _, read => by
    simp only [branches?, Option.map_eq_some_iff] at read
    obtain ⟨named, found, rfl⟩ := read
    exact ⟨ascending_ofEntries named, mapped_ofEntries (mapped_entries? entries found)⟩
  | .text _, _, read | .list _, _, read | .nothing, _, read | .truth _, _, read
  | .natural _, _, read | .number _, _, read | .letter _, _, read | .present _, _, read => by
    contradiction

theorem mapped_entries? : (entries : List (Datum × Datum)) →
    {named : List (String × WrittenRules)} → entries? entries = some named →
    ∀ entry ∈ named, entry.2.Mapped
  | [], _, read => by
    cases read
    exact List.forall_mem_nil _
  | (key, value) :: rest, _, read => by
    simp only [entries?, Option.bind_eq_bind, Option.bind_eq_some_iff] at read
    obtain ⟨_, _, _, found, _, others, made⟩ := read
    cases made
    exact List.forall_mem_cons.mpr ⟨mapped_rules? value found, mapped_entries? rest others⟩

theorem mapped_branchesAmong? : (entries : List (Datum × Datum)) →
    {branches : List (String × WrittenRules)} → branchesAmong? entries = some branches →
    Ascending branches ∧ ∀ entry ∈ branches, entry.2.Mapped
  | [], _, read => by
    cases read
    exact ⟨.nil, List.forall_mem_nil _⟩
  | (key, value) :: rest, _, read => by
    simp only [branchesAmong?] at read
    split at read
    · exact mapped_branches? value read
    · exact mapped_branchesAmong? rest read

end

/-- Every set of a grammar that is read has maps for branches. -/
theorem mapped_grammar? {value : Datum} {rules : WrittenGrammar}
    (read : value.grammar? = some rules) : ∀ entry ∈ rules, entry.2.Mapped := by
  cases value with
  | table entries =>
    obtain ⟨named, found, rfl⟩ := Option.map_eq_some_iff.mp read
    exact mapped_ofEntries (mapped_entries? entries found)
  | _ => contradiction

end Datum

namespace RuleSet

theorem branchesToWritten_eq_map (branches : List (String × RuleSet)) :
    branchesToWritten branches = branches.map fun entry => (entry.1, entry.2.toWritten) := by
  induction branches with
  | nil => rfl
  | cons entry rest ih => exact congrArg ((entry.1, entry.2.toWritten) :: ·) ih

theorem branchesOfWritten_eq_map (falloff : Float) (branches : List (String × WrittenRules)) :
    branchesOfWritten falloff branches =
      branches.map fun entry => (entry.1, ofWritten falloff entry.2) := by
  induction branches with
  | nil => rfl
  | cons entry rest ih => exact congrArg ((entry.1, ofWritten falloff entry.2) :: ·) ih

theorem Throughout.toWritten {set : RuleSet} (mapped : Throughout Mapped set) :
    set.toWritten.Mapped := by
  induction mapped with
  | @intro set here inward ih =>
    cases set with
    | plain pool => exact .many pool.alternatives
    | conditional condition branches pool =>
      rw [RuleSet.toWritten, branchesToWritten_eq_map]
      exact .conditional condition pool.alternatives (List.pairwise_map.mpr here)
        (List.forall_mem_map.mpr ih)

/-- The set that written rules describe has maps for branches where the rules do. -/
theorem mapped_ofWritten (falloff : Float) {rules : WrittenRules} (mapped : rules.Mapped) :
    Throughout Mapped (ofWritten falloff rules) := by
  induction mapped with
  | one rule => exact .intro .nil (List.forall_mem_nil _)
  | many rules => exact .intro .nil (List.forall_mem_nil _)
  | conditional condition defaults ascending _ ih =>
    rw [ofWritten, branchesOfWritten_eq_map]
    exact .intro (List.pairwise_map.mpr ascending) (List.forall_mem_map.mpr ih)

end RuleSet

namespace Symbol

/-- The rules on top of a symbol's stack; none on an empty one. -/
def shown (symbol : Symbol) : WrittenRules :=
  (symbol.top?.map (·.toWritten)).getD (.many [])

theorem EachSet.shown {symbol : Symbol}
    (mapped : symbol.EachSet (RuleSet.Throughout RuleSet.Mapped)) : symbol.shown.Mapped := by
  obtain ⟨_, stack⟩ := List.forall_mem_cons.mp mapped
  rw [Symbol.shown]
  cases top : symbol.top? with
  | none => exact .many []
  | some set => exact (stack set (List.mem_of_head? top)).toWritten

end Symbol

section

variable {text : String} {rules : WrittenGrammar}

theorem mapped_rulesOfRon (read : rulesOfRon text = .ok rules) :
    ∀ entry ∈ rules, entry.2.Mapped := by
  obtain ⟨_, named⟩ := grammar?_of_rulesOfRon read
  exact Datum.mapped_grammar? named

theorem mapped_rulesOfJson (read : rulesOfJson text = .ok rules) :
    ∀ entry ∈ rules, entry.2.Mapped := by
  obtain ⟨_, _, named⟩ := grammar?_of_rulesOfJson read
  exact Datum.mapped_grammar? named

end

namespace Grammar

theorem reached_ofWritten {rules : WrittenGrammar} {settings : Settings}
    (built : (ofWritten rules settings).Built) (mapped : ∀ entry ∈ rules, entry.2.Mapped) :
    (ofWritten rules settings).Reached :=
  .built built (eachSet_ofWritten fun entry member =>
    RuleSet.mapped_ofWritten settings.falloff (mapped entry member))

/-- Whatever is read from RON, can be reached. -/
theorem reached_ofRon {text : String} {grammar : Grammar} (read : ofRon text = .ok grammar) :
    grammar.Reached := by
  obtain ⟨rules, named, made⟩ := ok_of_bind_ok read
  cases made
  exact reached_ofWritten (.ofRon read) (mapped_rulesOfRon named)

/-- Whatever is read from JSON, can be reached. -/
theorem reached_ofJson {text : String} {grammar : Grammar} (read : ofJson text = .ok grammar) :
    grammar.Reached := by
  obtain ⟨rules, named, made⟩ := ok_of_bind_ok read
  cases made
  exact reached_ofWritten (.ofJson read) (mapped_rulesOfJson named)

theorem toWritten_eq_map (grammar : Grammar) :
    grammar.toWritten = grammar.symbols.map fun entry => (entry.1, entry.2.shown) :=
  rfl

theorem Ordered.toWritten {grammar : Grammar} (ordered : grammar.Ordered) :
    Keyed.Ascending grammar.toWritten :=
  List.pairwise_map.mpr ordered.symbols

theorem mapped_toWritten {grammar : Grammar}
    (mapped : grammar.EachSet (RuleSet.Throughout RuleSet.Mapped)) :
    ∀ entry ∈ grammar.toWritten, entry.2.Mapped := by
  rw [toWritten_eq_map]
  exact List.forall_mem_map.mpr fun entry member => (mapped.own entry member).shown

end Grammar

end TextGrammar
