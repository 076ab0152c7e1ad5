import TextGrammar.Proofs.Named
import TextGrammar.Proofs.Segments

/-! # What use leaves intact

A grammar without subgrammars keeps its shape, whatever is done with it and however that ends. Its
symbols stand under their own names, those it declares are there and unmarked, and no declared set
is touched, so that clearing can go back to it. Every set on a stack or below has a counter for each
alternative and the falloff of the settings, at every level of branches: a selection, which may
happen deep inside a set that others were pushed over, finds its counter and bends its roll as
configured.
-/

namespace TextGrammar

open Expansion

namespace RuleSet

variable {falloff : Float} {set : RuleSet}

/-- A set that was never drawn from, with one falloff at every level. -/
def Fresh (falloff : Float) : RuleSet → Prop :=
  Throughout fun set => set.pool = .fresh falloff set.defaults

theorem fresh_ofAlternatives (falloff : Float) (alternatives : List String) :
    (ofAlternatives falloff alternatives).Fresh falloff :=
  .intro rfl (List.forall_mem_nil _)

/-- There is nothing to clear in a fresh set. -/
theorem Fresh.clear_eq (fresh : set.Fresh falloff) : set.clear = set := by
  induction fresh with
  | @intro set here _ ih =>
    have cleared : set.pool.clear = set.pool := by rw [here, clear_fresh]
    cases set with
    | plain pool => exact congrArg RuleSet.plain cleared
    | conditional condition branches pool =>
      have inward : clearBranches branches = branches := by
        rw [clearBranches_eq_map]
        exact (List.map_congr_left fun entry member =>
          congrArg (Prod.mk entry.1) (ih entry member)).trans (List.map_id _)
      exact congrArg₂ (RuleSet.conditional condition) inward cleared

theorem Fresh.unused (fresh : set.Fresh falloff) :
    set.Throughout fun set => set.pool.uses = set.defaults.map fun _ => 0 :=
  fresh.mono fun _ here => congrArg Pool.uses here

end RuleSet

/-- A symbol over a declared set that nothing was drawn from, which is a plain one if a push
created the symbol. -/
structure Symbol.Sound (falloff : Float) (symbol : Symbol) : Prop where
  fresh : symbol.base.Fresh falloff
  pushed : symbol.dynamic = true →
    ∃ alternatives, symbol.base = .ofAlternatives falloff alternatives

/-- Nothing that is done with a symbol touches its declared set; clearing finds it as it was. -/
theorem Symbol.lasting_sound : Lasting fun falloff _ symbol => symbol.Sound falloff where
  pushed falloff _ alternatives :=
    ⟨RuleSet.fresh_ofAlternatives falloff alternatives, fun _ => ⟨alternatives, rfl⟩⟩
  push still _ := ⟨still.fresh, still.pushed⟩
  drop still := ⟨still.fresh, still.pushed⟩
  log still _ := ⟨still.fresh, still.pushed⟩
  select {falloff key symbol} still path rolls := by
    have bare := symbol.bare_selectUnlogged path rolls
    generalize (symbol.selectUnlogged path rolls).symbol = next at bare
    have base : next.base = symbol.base := (congrArg Symbol.base bare :)
    have mark : next.dynamic = symbol.dynamic := (congrArg Symbol.dynamic bare :)
    exact ⟨base ▸ still.fresh, base ▸ mark ▸ still.pushed⟩
  clear {falloff key symbol} still := by
    have base : symbol.clear.base = symbol.base := still.fresh.clear_eq
    exact ⟨base ▸ still.fresh, base ▸ still.pushed⟩

/-- Whatever is done with a grammar leaves its settings. -/
theorem kept_settings : Kept fun grammar next => next.settings = grammar.settings where
  refl _ := rfl
  trans early late := late.trans early
  step := Step.settings
  clear grammar := by rw [Grammar.clear_eq]

namespace Grammar

/-- A grammar as it was built, without subgrammars: from rules by name, from text or by a recipe, or
by laying such grammars over each other. Sets keep the falloff that they were built with. So unlike
`Built`, which lets any two grammars merge, this asks for grammars whose settings have the same
falloff: after another merge the sets that were taken over do not have the falloff of the settings,
and there is nothing to keep. -/
inductive BuiltAlone : Grammar → Prop
  | ofEntries (rules : List (String × WrittenRules)) (settings : Settings) :
      BuiltAlone (.ofWritten (Keyed.ofEntries rules) settings)
  | ofRon {text : String} {grammar : Grammar} (read : Grammar.ofRon text = .ok grammar) :
      BuiltAlone grammar
  | ofJson {text : String} {grammar : Grammar} (read : Grammar.ofJson text = .ok grammar) :
      BuiltAlone grammar
  | ofRonFile {entry : Option Entry} {grammar : Grammar}
      (read : Grammar.ofRonFile entry = .ok grammar) : BuiltAlone grammar
  | ofRecipe {recipe : Recipe} {files : Files} {grammar : Grammar}
      (builds : recipe.build files = .ok grammar) (alone : recipe.subgrammars = []) :
      BuiltAlone grammar
  | addModifiers {grammar : Grammar} (built : BuiltAlone grammar)
      (modifiers : List (String × Modifier)) : BuiltAlone (grammar.addModifiers modifiers)
  | merge {grammar other : Grammar} (built : BuiltAlone grammar) (builtOther : BuiltAlone other)
      (even : other.settings.falloff = grammar.settings.falloff) : BuiltAlone (grammar.merge other)

theorem BuiltAlone.built {grammar : Grammar} (alone : grammar.BuiltAlone) : grammar.Built := by
  induction alone with
  | ofEntries rules settings => exact .ofEntries rules settings
  | ofRon read => exact .ofRon read
  | ofJson read => exact .ofJson read
  | ofRonFile read => exact .ofRonFile read
  | ofRecipe builds alone => exact .ofRecipe builds (alone ▸ List.forall_mem_nil _)
  | addModifiers _ modifiers built => exact .addModifiers built modifiers
  | merge _ _ _ built builtOther => exact .merge built builtOther

/-- What holds of the symbols that written rules declare, holds of every symbol of a grammar that
was built without subgrammars. -/
theorem BuiltAlone.eachSymbol {holds : Float → String → Symbol → Prop} {grammar : Grammar}
    (alone : grammar.BuiltAlone)
    (declared : ∀ falloff key rules, holds falloff key (.declared key (.ofWritten falloff rules))) :
    grammar.EachSymbol holds := by
  have written (rules : WrittenGrammar) (settings : Settings) :
      (ofWritten rules settings).EachSymbol holds :=
    eachSymbol_ofWritten fun entry _ => declared settings.falloff entry.1 entry.2
  induction alone with
  | ofEntries rules settings => exact written _ settings
  | ofRon read =>
    obtain ⟨rules, _, rfl⟩ := written_of_ofRon read
    exact written rules {}
  | ofJson read =>
    obtain ⟨rules, _, rfl⟩ := written_of_ofJson read
    exact written rules {}
  | ofRonFile read =>
    obtain ⟨rules, _, rfl⟩ := written_of_ofRonFile read
    exact written rules {}
  | ofRecipe builds alone =>
    obtain ⟨rules, settings, _, _, rfl⟩ := written_of_build builds
    exact List.forall_mem_cons.mpr ⟨(written rules settings).own, alone ▸ List.forall_mem_nil _⟩
  | addModifiers _ modifiers each => exact each.addModifiers modifiers
  | merge _ _ even each eachOther => exact each.merge eachOther fun _ _ => even ▸ id

/-- What a grammar has in common with the one that was built, whatever was done with it since. -/
structure Intact (built grammar : Grammar) : Prop where
  settings : grammar.settings = built.settings
  ascending : Keyed.Ascending grammar.symbols
  /-- A symbol has the name that it stands under. -/
  named : ∀ entry ∈ grammar.symbols, entry.2.key = entry.1
  /-- What was declared is there, unmarked, over the very set that it was declared with. -/
  declared : ∀ entry ∈ built.symbols, ∃ symbol, grammar.symbol? entry.1 = some symbol ∧
    symbol.dynamic = false ∧ symbol.base = entry.2.base
  /-- What was not declared is marked, and stands over a set that was pushed. -/
  pushed : ∀ entry ∈ grammar.symbols, built.symbol? entry.1 = none → entry.2.dynamic = true ∧
    ∃ alternatives, entry.2.base = built.pushedSet alternatives
  /-- Nothing is counted in the sets at the base, at any level. -/
  unused : ∀ entry ∈ grammar.symbols,
    entry.2.base.Throughout fun set => set.pool.uses = set.defaults.map fun _ => 0
  /-- There is a counter for each alternative of each set, at any level. -/
  counted : ∀ entry ∈ grammar.symbols, entry.2.EachSet (RuleSet.Throughout RuleSet.Counted)
  /-- All sets have the falloff of the settings, at any level. -/
  even : ∀ entry ∈ grammar.symbols,
    entry.2.EachSet (RuleSet.Throughout (·.pool.falloff = built.settings.falloff))

/-- Clearing takes the marked symbols off and changes no declaration, so what it gives back was
there before it. -/
theorem exists_of_clear {grammar : Grammar}
    (sound : grammar.EachSymbol fun falloff _ symbol => symbol.Sound falloff)
    {entry : String × Symbol} (member : entry ∈ grammar.clear.symbols) :
    ∃ symbol, (entry.1, symbol) ∈ grammar.symbols ∧ symbol.dynamic = false ∧
      symbol.base = entry.2.base := by
  rw [clear_eq] at member
  obtain ⟨⟨key, symbol⟩, held, rfl⟩ := List.mem_map.mp member
  obtain ⟨stands, unmarked⟩ := List.mem_filter.mp held
  exact ⟨symbol, stands, (Bool.not_eq_true' _).mp unmarked,
    (sound.own _ stands).fresh.clear_eq.symm⟩

/-- An unmarked symbol is there after clearing. -/
theorem symbol?_clear_of_unmarked {grammar : Grammar} (ascending : Keyed.Ascending grammar.symbols)
    {entry : String × Symbol} (member : entry ∈ grammar.symbols)
    (unmarked : entry.2.dynamic = false) :
    grammar.clear.symbol? entry.1 = some entry.2.clear := by
  rw [clear_eq]
  refine (ascending_renewed ascending).lookup_of_mem (List.mem_map.mpr ⟨entry, ?_, rfl⟩)
  exact List.mem_filter.mpr ⟨member, (Bool.not_eq_true' _).mpr unmarked⟩

end Grammar

/-- Whatever is done with a grammar that was built without subgrammars, successfully or not: its
symbols keep their names, its declarations stay as they are, and all sets have their counters and
the falloff of the settings. -/
theorem built_stays_intact {built : Grammar} (alone : built.BuiltAlone) (rolls : Rolls)
    (operations : List Operation) :
    built.Intact (Operation.runAll ⟨built, rolls⟩ operations).2.grammar := by
  have pristine := alone.built.pristine
  have named := kept_named.operations ⟨built, rolls⟩ operations pristine.named
  have counted := (kept_eachSet RuleSet.lasting_counted).operations ⟨built, rolls⟩ operations
    alone.built.counted
  obtain ⟨same, ordered⟩ := kept_renews.operations ⟨built, rolls⟩ operations pristine.ordered
  have settings := kept_settings.operations ⟨built, rolls⟩ operations
  have sound := Symbol.lasting_sound.kept.operations ⟨built, rolls⟩ operations
    (alone.eachSymbol fun falloff _ rules =>
      ⟨RuleSet.fresh_ofWritten falloff rules, Bool.noConfusion⟩)
  have even := Symbol.lasting_even.kept.operations ⟨built, rolls⟩ operations
    (alone.eachSymbol fun falloff key rules =>
      Symbol.eachSet_declared (RuleSet.even_ofWritten falloff rules) key)
  generalize (Operation.runAll ⟨built, rolls⟩ operations).2.grammar = used at *
  have back : used.clear = built := same.trans pristine.clear
  refine ⟨settings, ordered.symbols, named.labelled, ?declared, ?pushed,
    fun entry member => (sound.own entry member).fresh.unused, counted.own,
    fun entry member => settings ▸ even.own entry member⟩
  case declared =>
    intro entry member
    rw [← back] at member
    obtain ⟨symbol, stands, unmarked, base⟩ := Grammar.exists_of_clear sound member
    exact ⟨symbol, ordered.symbols.lookup_of_mem stands, unmarked, base⟩
  case pushed =>
    intro entry member missing
    have marked : entry.2.dynamic = true := by
      by_contra unmarked
      have kept := Grammar.symbol?_clear_of_unmarked ordered.symbols member
        (Bool.eq_false_iff.mpr unmarked)
      rw [back, missing] at kept
      contradiction
    obtain ⟨alternatives, base⟩ := (sound.own entry member).pushed marked
    rw [settings] at base
    exact ⟨marked, alternatives, base⟩

/-- A crossing by tide and wind. -/
def ferry : Grammar :=
  .ofWritten (Keyed.ofEntries [
    ("crossing", .conditional "#tide#"
      [("high", .conditional "#wind#" [("calm", .one "by boat")] ["by rope"])] ["on foot"]),
    ("tide", .one "high"),
    ("wind", .one "calm")]) { falloff := 2 }

/-- A crossing, a toll that a caller pushes and nobody takes off, a wind that stays when an
ambiguous tag cuts the rule short that pushed it, and a tide that is popped once too often. -/
def ferryUses : List Operation :=
  [.expand "#crossing#", .context [.ask (.activate (.push "toll" "coin")), .pop "wreck"],
    .flatten "[wind:gale]#crossing[wind:POP]back#", .pop "tide", .pop "tide"]

theorem built_stays_intact_ferry :
    let used := (Operation.runAll ⟨ferry, { stream := fun _ => default }⟩ ferryUses).2.grammar
    ferry.BuiltAlone ∧ used.mark? "toll" = some true ∧ (used.setsOn "wind").length = 2 ∧
      used.setsOn "tide" = [] ∧
      ((used.ruleSet? "crossing").bind (·.descend? ["high", "calm"])).map (·.pool.uses) =
        some [1] ∧ ferry.Intact used := by
  intro used
  have built : ferry.BuiltAlone := .ofEntries _ _
  have told : used.mark? "toll" = some true ∧ (used.setsOn "wind").length = 2 ∧
      (used.setsOn "tide").length = 0 ∧
      ((used.ruleSet? "crossing").bind (·.descend? ["high", "calm"])).map (·.pool.uses) =
        some [1] := by
    simp only [used]
    cbv
  obtain ⟨marked, pushed, popped, counted⟩ := told
  exact ⟨built, marked, pushed, List.length_eq_zero_iff.mp popped, counted,
    built_stays_intact built { stream := fun _ => default } ferryUses⟩

end TextGrammar
