import TextGrammar.Loading.Recipe
import TextGrammar.Proofs.Sessions

/-! # Clearing gives back what was built

Nothing that is done with a grammar touches the declared sets, the marks of the declared symbols or
the order of the symbols. So what clearing makes of a grammar stays the same throughout a session;
and of a grammar as it was built, clearing makes the grammar itself.
-/

namespace TextGrammar

namespace RuleSet

theorem clear_fresh (falloff : Float) (alternatives : List String) :
    (Pool.fresh falloff alternatives).clear = Pool.fresh falloff alternatives := by
  simp only [Pool.fresh, Pool.clear, List.map_map, Function.comp_def]

mutual

/-- A set as written was never used. -/
theorem clear_ofWritten (falloff : Float) :
    (rules : WrittenRules) → (ofWritten falloff rules).clear = ofWritten falloff rules
  | .one _ => congrArg RuleSet.plain (clear_fresh _ _)
  | .many _ => congrArg RuleSet.plain (clear_fresh _ _)
  | .conditional condition branches _ =>
    congrArg₂ (RuleSet.conditional condition) (clearBranches_ofWritten falloff branches)
      (clear_fresh _ _)

theorem clearBranches_ofWritten (falloff : Float) : (branches : List (String × WrittenRules)) →
    clearBranches (branchesOfWritten falloff branches) = branchesOfWritten falloff branches
  | [] => rfl
  | (key, rules) :: rest =>
    congrArg₂ (fun set others => (key, set) :: others) (clear_ofWritten falloff rules)
      (clearBranches_ofWritten falloff rest)

end

theorem clear_clear_pool (pool : Pool) : pool.clear.clear = pool.clear := by
  simp only [Pool.clear, List.map_map, Function.comp_def]

mutual

theorem clear_clear : (set : RuleSet) → set.clear.clear = set.clear
  | .plain pool => congrArg RuleSet.plain (clear_clear_pool pool)
  | .conditional condition branches pool =>
    congrArg₂ (RuleSet.conditional condition) (clearBranches_clearBranches branches)
      (clear_clear_pool pool)

theorem clearBranches_clearBranches : (branches : List (String × RuleSet)) →
    clearBranches (clearBranches branches) = clearBranches branches
  | [] => rfl
  | (key, set) :: rest =>
    congrArg₂ (fun set others => (key, set) :: others) (clear_clear set)
      (clearBranches_clearBranches rest)

end

end RuleSet

namespace Symbol

theorem clear_clear (symbol : Symbol) : symbol.clear.clear = symbol.clear := by
  simp only [clear, RuleSet.clear_clear]

/-- Selecting touches neither the declared set nor the mark. -/
theorem clear_selectUnlogged (symbol : Symbol) (path : List String) (rolls : Rolls) :
    (symbol.selectUnlogged path rolls).symbol.clear = symbol.clear ∧
      (symbol.selectUnlogged path rolls).symbol.dynamic = symbol.dynamic := by
  cases stack : symbol.stack with
  | nil => simp only [selectUnlogged, stack, and_self]
  | cons top below =>
    simp only [selectUnlogged, stack]
    cases top.select? rolls path <;> exact ⟨rfl, rfl⟩

theorem clear_select (symbol : Symbol) (origin : Option Place) (path : List String)
    (rolls : Rolls) :
    (symbol.select origin path rolls).symbol.clear = symbol.clear ∧
      (symbol.select origin path rolls).symbol.dynamic = symbol.dynamic :=
  clear_selectUnlogged { symbol with log := origin :: symbol.log } path rolls

end Symbol

namespace Grammar

/-- What clearing leaves of some symbols. -/
def renewed (symbols : List (String × Symbol)) : List (String × Symbol) :=
  (symbols.filter (!·.2.dynamic)).map fun (key, symbol) => (key, symbol.clear)

theorem clear_eq (grammar : Grammar) :
    grammar.clear = { grammar with
      symbols := renewed grammar.symbols
      subgrammars := clearAll grammar.subgrammars } := by
  cases grammar
  rfl

theorem clearAll_eq_map (grammars : List Grammar) : clearAll grammars = grammars.map clear := by
  induction grammars with
  | nil => rfl
  | cons grammar rest ih => rw [clearAll, ih, List.map_cons]

theorem renewed_renewed (symbols : List (String × Symbol)) :
    renewed (renewed symbols) = renewed symbols := by
  have declared (entry : String × Symbol) :
      (!entry.2.clear.dynamic && !entry.2.dynamic) = !entry.2.dynamic := Bool.and_self _
  simp only [renewed, List.filter_map, List.map_map, List.filter_filter, Function.comp_def,
    Symbol.clear_clear, declared]

mutual

theorem clear_clear : (grammar : Grammar) → grammar.clear.clear = grammar.clear
  | ⟨symbols, modifiers, subgrammars, settings⟩ =>
    congrArg₂ (Grammar.mk · modifiers · settings) (renewed_renewed symbols)
      (clearAll_clearAll subgrammars)

theorem clearAll_clearAll :
    (grammars : List Grammar) → clearAll (clearAll grammars) = clearAll grammars
  | [] => rfl
  | grammar :: rest => congrArg₂ List.cons (clear_clear grammar) (clearAll_clearAll rest)

end

section

variable {symbols : List (String × Symbol)} {key : String} {symbol previous : Symbol}

/-- A changed symbol comes to the same when it is cleared. -/
theorem renewed_insert (ascending : Keyed.Ascending symbols)
    (found : symbols.lookup key = some previous) (same : symbol.clear = previous.clear)
    (mark : symbol.dynamic = previous.dynamic) :
    renewed (Keyed.insert key symbol symbols) = renewed symbols := by
  obtain ⟨before, after, split, inserted⟩ := Keyed.insert_of_lookup ascending found symbol
  rw [inserted, split]
  simp only [renewed, List.filter_append, List.filter_cons, mark, List.map_append]
  cases previous.dynamic
  · simp only [Bool.not_false, ↓reduceIte, List.map_cons, same]
  · simp only [Bool.not_true, Bool.false_eq_true, ↓reduceIte]

/-- A new symbol that a push made is dropped. -/
theorem renewed_insert_dynamic (missing : symbols.lookup key = none)
    (marked : symbol.dynamic = true) :
    renewed (Keyed.insert key symbol symbols) = renewed symbols := by
  obtain ⟨before, after, split, inserted⟩ := Keyed.insert_of_lookup_none missing symbol
  rw [inserted, split]
  simp only [renewed, List.filter_append, List.filter_cons, marked, Bool.not_true,
    Bool.false_eq_true, ↓reduceIte]

end

/-- The symbols of a grammar and of its subgrammars stand in the order of their keys. -/
def Ordered (grammar : Grammar) : Prop :=
  ∀ owner ∈ grammar :: grammar.subgrammars, Keyed.Ascending owner.symbols

theorem Ordered.symbols {grammar : Grammar} (ordered : grammar.Ordered) :
    Keyed.Ascending grammar.symbols :=
  ordered grammar List.mem_cons_self

/-- A grammar that comes to the same as another when it is cleared, and is in order if the other
is. -/
def Renews (grammar next : Grammar) : Prop :=
  grammar.Ordered → next.clear = grammar.clear ∧ next.Ordered

/-- It suffices that the symbols come to the same. -/
theorem renews_of_symbols {grammar : Grammar} {symbols : List (String × Symbol)}
    (same : grammar.Ordered → renewed symbols = renewed grammar.symbols)
    (ascending : grammar.Ordered → Keyed.Ascending symbols) :
    grammar.Renews { grammar with symbols } := by
  intro ordered
  obtain ⟨_, subs⟩ := List.forall_mem_cons.mp ordered
  refine ⟨?_, List.forall_mem_cons.mpr ⟨ascending ordered, subs⟩⟩
  simp only [clear_eq, same ordered]

theorem renews_insert {grammar : Grammar} {key : String} {symbol previous : Symbol}
    (found : grammar.symbol? key = some previous) (same : symbol.clear = previous.clear)
    (mark : symbol.dynamic = previous.dynamic) :
    grammar.Renews { grammar with symbols := Keyed.insert key symbol grammar.symbols } :=
  renews_of_symbols (fun ordered => renewed_insert ordered.symbols found same mark)
    fun ordered => ordered.symbols.insert key symbol

theorem renews_push (grammar : Grammar) (key : String) (alternatives : List String) :
    grammar.Renews (grammar.push key alternatives) := by
  simp only [push]
  cases found : grammar.symbol? key with
  | some symbol => exact renews_insert found rfl rfl
  | none =>
    exact renews_of_symbols (fun _ => renewed_insert_dynamic found rfl)
      fun ordered => ordered.symbols.insert key _

theorem renews_of_pop {grammar next : Grammar} {key : String} {set : RuleSet}
    (popped : grammar.pop key = .ok (set, next)) : grammar.Renews next := by
  obtain ⟨symbol, below, found, _, rfl⟩ := eq_of_pop popped
  exact renews_insert found rfl rfl

theorem renews_selectAmong? {key : String} {path : List String} {rolls : Rolls}
    {subs next : List Grammar} {selection : Symbol.Selection}
    (success : selectAmong? key path rolls subs = some (selection, next))
    (ordered : ∀ sub ∈ subs, Keyed.Ascending sub.symbols) :
    clearAll next = clearAll subs ∧ ∀ sub ∈ next, Keyed.Ascending sub.symbols := by
  obtain ⟨before, sub, after, symbol, rfl, found, rfl, rfl⟩ := eq_of_selectAmong? success
  obtain ⟨early, rest⟩ := List.forall_mem_append.mp ordered
  obtain ⟨first, late⟩ := List.forall_mem_cons.mp rest
  obtain ⟨same, mark⟩ := symbol.clear_selectUnlogged path rolls
  constructor
  · simp only [clearAll_eq_map, List.map_append, List.map_cons, clear_eq,
      renewed_insert first found same mark]
  · exact List.forall_mem_append.mpr
      ⟨early, List.forall_mem_cons.mpr ⟨first.insert key _, late⟩⟩

theorem renews_select (grammar : Grammar) (key : String) (origin : Option Place)
    (path : List String) (rolls : Rolls) :
    grammar.Renews (grammar.select key origin path rolls).grammar := by
  simp only [select]
  cases found : grammar.symbol? key with
  | some symbol =>
    obtain ⟨same, mark⟩ := symbol.clear_select origin path rolls
    exact renews_insert found same mark
  | none =>
    cases selects : selectAmong? key path rolls grammar.subgrammars with
    | none => exact fun ordered => ⟨rfl, ordered⟩
    | some outcome =>
      intro ordered
      obtain ⟨own, subs⟩ := List.forall_mem_cons.mp ordered
      obtain ⟨same, kept⟩ := renews_selectAmong? selects subs
      exact ⟨by simp only [clear_eq, same], List.forall_mem_cons.mpr ⟨own, kept⟩⟩

theorem ascending_renewed {symbols : List (String × Symbol)} (ascending : Keyed.Ascending symbols) :
    Keyed.Ascending (renewed symbols) :=
  List.pairwise_map.mpr (ascending.filter _)

theorem renews_clear (grammar : Grammar) : grammar.Renews grammar.clear := by
  intro ordered
  obtain ⟨own, subs⟩ := List.forall_mem_cons.mp ordered
  refine ⟨grammar.clear_clear, ?_⟩
  rw [clear_eq, clearAll_eq_map]
  refine List.forall_mem_cons.mpr
    ⟨ascending_renewed own, List.forall_mem_map.mpr fun sub member => ?_⟩
  rw [clear_eq]
  exact ascending_renewed (subs sub member)

end Grammar

open Expansion Grammar

theorem Expansion.Step.renews {source target : Expansion} {event : Event}
    (step : Step source event target) : source.grammar.Renews target.grammar := by
  cases step with
  | pushed site key alternatives => exact renews_push source.grammar key alternatives
  | took _ popped => exact renews_of_pop popped
  | selected key origin path => exact renews_select source.grammar key origin path source.rolls
  | _ => exact fun ordered => ⟨rfl, ordered⟩

theorem kept_renews : Kept Renews where
  refl _ ordered := ⟨rfl, ordered⟩
  trans early late ordered := by
    obtain ⟨first, ordered⟩ := early ordered
    obtain ⟨second, ordered⟩ := late ordered
    exact ⟨second.trans first, ordered⟩
  step := Step.renews
  clear := renews_clear

/-- A grammar that nothing was done with yet: its symbols are declared and stand in order, each with
its declared set alone on its stack, no use counted anywhere and none logged; and so it is with its
subgrammars. -/
inductive Grammar.Pristine : Grammar → Prop
  | intro {grammar : Grammar} (ascending : Keyed.Ascending grammar.symbols)
      (declared : ∀ entry ∈ grammar.symbols, entry.2 = .declared entry.1 entry.2.base)
      (unused : ∀ entry ∈ grammar.symbols, entry.2.base.clear = entry.2.base)
      (subgrammars : ∀ sub ∈ grammar.subgrammars, sub.Pristine) : grammar.Pristine

namespace Grammar.Pristine

variable {grammar : Grammar}

theorem ascending (pristine : grammar.Pristine) : Keyed.Ascending grammar.symbols := by
  cases pristine
  assumption

theorem subgrammars (pristine : grammar.Pristine) :
    ∀ sub ∈ grammar.subgrammars, sub.Pristine := by
  cases pristine
  assumption

theorem ordered (pristine : grammar.Pristine) : grammar.Ordered :=
  List.forall_mem_cons.mpr
    ⟨pristine.ascending, fun sub member => (pristine.subgrammars sub member).ascending⟩

/-- A declared set is alone on the stack of its name. -/
theorem setsOn (pristine : grammar.Pristine) {key : String} {symbol : Symbol}
    (stands : (key, symbol) ∈ grammar.symbols) : grammar.setsOn key = [symbol.base] := by
  cases pristine with
  | intro ascending declared unused _ =>
    have stack : symbol.stack = [symbol.base] := congrArg Symbol.stack (declared _ stands)
    have cleared : symbol.base.clear = symbol.base := unused _ stands
    rw [Grammar.setsOn, symbol?, ascending.lookup_of_mem stands]
    simp only [Option.map_some, Option.getD_some, Symbol.sets, Symbol.bare, stack, List.map_cons,
      List.map_nil, cleared]

/-- Clearing leaves it as it is. -/
theorem clear (pristine : grammar.Pristine) : grammar.clear = grammar := by
  induction pristine with
  | @intro grammar _ declared unused _ ih =>
    have cleared (entry : String × Symbol) (member : entry ∈ grammar.symbols) :
        (entry.1, entry.2.clear) = entry := by
      refine Prod.ext rfl ?_
      change entry.2.clear = entry.2
      rw [declared entry member]
      simp only [Symbol.clear, Symbol.declared, unused entry member]
    have kept : grammar.symbols.filter (!·.2.dynamic) = grammar.symbols :=
      List.filter_eq_self.mpr fun entry member => by rw [declared entry member]; rfl
    have symbols : renewed grammar.symbols = grammar.symbols := by
      rw [renewed, kept]
      exact (List.map_congr_left cleared).trans (List.map_id _)
    have subs : clearAll grammar.subgrammars = grammar.subgrammars := by
      rw [clearAll_eq_map]
      exact (List.map_congr_left ih).trans (List.map_id _)
    rw [clear_eq, symbols, subs]
    cases grammar
    rfl

end Grammar.Pristine

namespace Grammar

/-- A grammar as it was built: from rules by name, from text, by a recipe with subgrammars that were
built too, or out of grammars so built. -/
inductive Built : Grammar → Prop
  | ofEntries (rules : List (String × WrittenRules)) (settings : Settings) :
      Built (.ofWritten (Keyed.ofEntries rules) settings)
  | ofRon {text : String} {grammar : Grammar} (read : Grammar.ofRon text = .ok grammar) :
      Built grammar
  | ofJson {text : String} {grammar : Grammar} (read : Grammar.ofJson text = .ok grammar) :
      Built grammar
  | ofRonFile {entry : Option Entry} {grammar : Grammar}
      (read : Grammar.ofRonFile entry = .ok grammar) : Built grammar
  | ofRecipe {recipe : Recipe} {files : Files} {grammar : Grammar}
      (builds : recipe.build files = .ok grammar)
      (subgrammars : ∀ sub ∈ recipe.subgrammars, Built sub) : Built grammar
  | addModifiers {grammar : Grammar} (built : Built grammar)
      (modifiers : List (String × Modifier)) : Built (grammar.addModifiers modifiers)
  | addSubgrammar {grammar sub : Grammar} (built : Built grammar) (builtSub : Built sub) :
      Built (grammar.addSubgrammar sub)
  | merge {grammar other : Grammar} (built : Built grammar) (builtOther : Built other) :
      Built (grammar.merge other)

end Grammar

/-- What comes first succeeds where the whole does. -/
theorem ok_of_bind_ok {ε α β : Type} {first : Except ε α} {next : α → Except ε β} {result : β}
    (through : first >>= next = .ok result) :
    ∃ value, first = .ok value ∧ next value = .ok result := by
  cases first with
  | error fault => contradiction
  | ok value => exact ⟨value, rfl, through⟩

section Loading

open Keyed

variable {files : Files} {rules next : WrittenGrammar}

theorem Datum.ascending_grammar? {datum : Datum} (read : datum.grammar? = some rules) :
    Ascending rules := by
  cases datum with
  | table entries =>
    obtain ⟨_, _, rfl⟩ := Option.map_eq_some_iff.mp read
    exact ascending_ofEntries _
  | _ => contradiction

/-- Rules that are read from RON come from a datum. -/
theorem grammar?_of_rulesOfRon {text : String} (read : rulesOfRon text = .ok rules) :
    ∃ value : Datum, value.grammar? = some rules := by
  simp only [rulesOfRon] at read
  split at read
  · next found =>
    cases read
    obtain ⟨value, _, named⟩ := Option.bind_eq_some_iff.mp found
    exact ⟨value, named⟩
  · contradiction

theorem ascending_rulesOfRon {text : String} (read : rulesOfRon text = .ok rules) :
    Ascending rules := by
  obtain ⟨_, named⟩ := grammar?_of_rulesOfRon read
  exact Datum.ascending_grammar? named

/-- Rules that are read from JSON come from the datum that the text is read as. -/
theorem grammar?_of_rulesOfJson {text : String} (read : rulesOfJson text = .ok rules) :
    ∃ value, Json.read? text = some value ∧ value.grammar? = some rules := by
  simp only [rulesOfJson] at read
  split at read
  · next found =>
    cases read
    exact Option.bind_eq_some_iff.mp found
  · contradiction

theorem ascending_rulesOfJson {text : String} (read : rulesOfJson text = .ok rules) :
    Ascending rules := by
  obtain ⟨_, _, named⟩ := grammar?_of_rulesOfJson read
  exact Datum.ascending_grammar? named

theorem ascending_overlayFiles {entries : List Entry} (ascending : Ascending rules)
    (reads : overlayFiles rules entries = .ok next) : Ascending next := by
  induction entries generalizing rules with
  | nil =>
    cases reads
    exact ascending
  | cons entry rest ih =>
    obtain ⟨_, _, reads⟩ := ok_of_bind_ok reads
    exact ih (ascending.overlay _) reads

theorem Source.ascending_overlay {source : Source} (ascending : Ascending rules)
    (reads : source.overlay files rules = .ok next) : Ascending next := by
  cases source with
  | rules more =>
    cases reads
    exact ascending.overlay more
  | ron text | json text | ronFile path =>
    obtain ⟨more, _, read⟩ := ok_of_bind_ok reads
    cases read
    exact ascending.overlay more
  | ronFolder path =>
    simp only [Source.overlay] at reads
    split at reads
    · exact ascending_overlayFiles ascending reads
    · contradiction

theorem ascending_overlaySources {sources : List Source} (ascending : Ascending rules)
    (reads : overlaySources files rules sources = .ok next) : Ascending next := by
  induction sources generalizing rules with
  | nil =>
    cases reads
    exact ascending
  | cons source rest ih =>
    obtain ⟨_, overlaid, reads⟩ := ok_of_bind_ok reads
    exact ih (Source.ascending_overlay ascending overlaid) reads

end Loading

namespace Grammar

theorem pristine_ofWritten {rules : WrittenGrammar} (ascending : Keyed.Ascending rules)
    (settings : Settings) : (ofWritten rules settings).Pristine := by
  refine .intro (List.pairwise_map.mpr ascending) ?_ ?_ (List.forall_mem_nil _)
  · exact List.forall_mem_map.mpr fun _ _ => rfl
  · exact List.forall_mem_map.mpr fun _ _ => RuleSet.clear_ofWritten _ _

/-- What is read from RON, is made from rules in order. -/
theorem written_of_ofRon {text : String} {grammar : Grammar} (read : ofRon text = .ok grammar) :
    ∃ rules, Keyed.Ascending rules ∧ grammar = .ofWritten rules {} := by
  obtain ⟨rules, named, made⟩ := ok_of_bind_ok read
  cases made
  exact ⟨rules, ascending_rulesOfRon named, rfl⟩

theorem written_of_ofJson {text : String} {grammar : Grammar} (read : ofJson text = .ok grammar) :
    ∃ rules, Keyed.Ascending rules ∧ grammar = .ofWritten rules {} := by
  obtain ⟨rules, named, made⟩ := ok_of_bind_ok read
  cases made
  exact ⟨rules, ascending_rulesOfJson named, rfl⟩

theorem written_of_ofRonFile {entry : Option Entry} {grammar : Grammar}
    (read : ofRonFile entry = .ok grammar) :
    ∃ rules, Keyed.Ascending rules ∧ grammar = .ofWritten rules {} := by
  obtain ⟨_, _, read⟩ := ok_of_bind_ok read
  exact written_of_ofRon read

/-- What a recipe builds, is made from rules in order, with modifiers and subgrammars. -/
theorem written_of_build {recipe : Recipe} {files : Files} {grammar : Grammar}
    (builds : recipe.build files = .ok grammar) :
    ∃ rules settings modifiers, Keyed.Ascending rules ∧
      grammar = { ofWritten rules settings with modifiers, subgrammars := recipe.subgrammars } := by
  obtain ⟨settings, _, builds⟩ := ok_of_bind_ok builds
  obtain ⟨rules, overlaid, builds⟩ := ok_of_bind_ok builds
  cases builds
  exact ⟨rules, settings, _, ascending_overlaySources .nil overlaid, rfl⟩

/-- What was built, nothing was done with. -/
theorem Built.pristine {grammar : Grammar} (built : grammar.Built) : grammar.Pristine := by
  induction built with
  | ofEntries rules settings => exact pristine_ofWritten (Keyed.ascending_ofEntries rules) settings
  | ofRon read =>
    obtain ⟨_, ascending, rfl⟩ := written_of_ofRon read
    exact pristine_ofWritten ascending {}
  | ofJson read =>
    obtain ⟨_, ascending, rfl⟩ := written_of_ofJson read
    exact pristine_ofWritten ascending {}
  | ofRonFile read =>
    obtain ⟨_, ascending, rfl⟩ := written_of_ofRonFile read
    exact pristine_ofWritten ascending {}
  | ofRecipe builds _ subs =>
    obtain ⟨_, settings, _, ascending, rfl⟩ := written_of_build builds
    cases pristine_ofWritten ascending settings with
    | intro ascending declared unused _ => exact ⟨ascending, declared, unused, subs⟩
  | addModifiers _ modifiers pristine =>
    cases pristine with
    | intro ascending declared unused subs => exact ⟨ascending, declared, unused, subs⟩
  | addSubgrammar _ _ pristine pristineSub =>
    cases pristine with
    | intro ascending declared unused subs =>
      exact ⟨ascending, declared, unused, List.forall_mem_append.mpr
        ⟨subs, List.forall_mem_singleton.mpr pristineSub⟩⟩
  | merge _ _ pristine pristineOther =>
    cases pristine with
    | intro ascending declared unused subs =>
      cases pristineOther with
      | intro _ declaredOther unusedOther subsOther =>
        refine .intro (ascending.overlay _) (fun entry member => ?_) (fun entry member => ?_)
          (List.forall_mem_append.mpr ⟨subs, subsOther⟩)
        · exact (Keyed.mem_overlay member).elim (declaredOther entry) (declared entry)
        · exact (Keyed.mem_overlay member).elim (unusedOther entry) (unused entry)

end Grammar

/-- Whatever was done with a grammar since it was built, successfully or not, clearing gives it back
as it was: pristine, so that whatever is done with it next goes as with the grammar just built. -/
theorem clear_after_operations {built : Grammar} (fresh : built.Built) (rolls : Rolls)
    (operations : List Operation) :
    let used := (Operation.runAll ⟨built, rolls⟩ operations).2.grammar
    used.clear = built ∧ built.Pristine ∧
      ∀ again later, Operation.runAll ⟨used.clear, again⟩ later =
        Operation.runAll ⟨built, again⟩ later := by
  intro used
  have pristine := fresh.pristine
  obtain ⟨same, _⟩ := kept_renews.operations ⟨built, rolls⟩ operations pristine.ordered
  have back : used.clear = built := same.trans pristine.clear
  exact ⟨back, pristine, fun again later => by rw [back]⟩

/-- A grammar with a choice by the weather, of which a subgrammar tells. -/
def forecast : Grammar :=
  (Grammar.ofWritten (Keyed.ofEntries [
    ("walk", .conditional "#weather#" [("rain", .one "indoors")] ["outdoors"])]) {}).addSubgrammar
    (.ofWritten (Keyed.ofEntries [("weather", .one "rain")]) {})

/-- A walk, a caller's push that is not undone, a rule that pushes and is then cut short by an
ambiguous tag, and a pop of the declared set. -/
def forecastUses : List Operation :=
  [.expand "#walk#", .context [.ask (.activate (.push "mood" "calm"))],
    .flatten "[mood:mild]#walk[mood:POP]away#", .pop "walk"]

theorem clear_after_operations_forecast :
    let used := (Operation.runAll ⟨forecast, { stream := fun _ => default }⟩ forecastUses).2.grammar
    forecast.Built ∧ used.setsOn "walk" = [] ∧ used.mark? "mood" = some true ∧
      (used.symbol? "walk").map (·.log) = some [some ⟨1, 0⟩] ∧ used.clear = forecast := by
  intro used
  have built : forecast.Built := .addSubgrammar (.ofEntries _ _) (.ofEntries _ _)
  have popped : (used.setsOn "walk").isEmpty = true := by
    simp only [used]
    cbv
  have marked : used.mark? "mood" = some true := by
    simp only [used]
    cbv
  have logged : (used.symbol? "walk").map (·.log) = some [some ⟨1, 0⟩] := by
    simp only [used]
    cbv
  obtain ⟨back, _⟩ := clear_after_operations built { stream := fun _ => default } forecastUses
  exact ⟨built, List.isEmpty_iff.mp popped, marked, logged, back⟩

end TextGrammar
