import TextGrammar.Proofs.Regimes
import TextGrammar.Proofs.Endless

/-! # What an expansion comes to

The names that a rule looks up are those that the walk finds in it, and the empty one, which the
walk passes over. Where nothing pushes, an expansion reads the texts inside the rule, the texts of
the symbols whose names are looked up on the way, and placeholders. So all that is met in a run is
explained by this closure: what is wrong with its texts and with the heads of their tags, and
what is amiss with its names.
-/

namespace TextGrammar

open Lint Engine

/-- The names that a rule looks up by itself: those that the walk finds in it, and the empty one if
some tag in it names nothing else. -/
def LooksUp (rule name : String) : Prop :=
  name ∈ (References.ofRule rule).symbols ∨
    name = "" ∧ ∃ text, Encloses rule text ∧ Names text ""

/-- A rule looks up what the tags inside it name. -/
theorem looksUp_of_names {rule text name : String} (inside : Encloses rule text)
    (names : Names text name) : LooksUp rule name := by
  obtain ⟨raw, head, tag, parsed, rfl⟩ := names
  by_cases empty : head.symbol = ""
  · exact .inr ⟨empty, text, inside, raw, head, tag, parsed, empty⟩
  · obtain ⟨levels, includes⟩ := References.ofRule_includes_segment inside tag
    refine .inl (includes.symbols ?_)
    simp only [References.ofSegment, References.ofTag, parsed, References.append, empty, ↓reduceIte]
    exact List.mem_append_right _ (List.mem_singleton_self _)

theorem LooksUp.names {rule name : String} (looksUp : LooksUp rule name) :
    ∃ text, Names text name := by
  rcases looksUp with found | ⟨rfl, text, _, names⟩
  · obtain ⟨_, text, _, names⟩ := References.names_of_within found
    exact ⟨text, names⟩
  · exact ⟨text, names⟩

/-- The closure of the names that a rule looks up: theirs are all that the texts of these symbols
look up as well. -/
inductive Refers (grammar : Grammar) (rule : String) : String → Prop
  | own {name : String} (looksUp : LooksUp rule name) : Refers grammar rule name
  | through {between name source : String} {symbol : Symbol} (refers : Refers grammar rule between)
      (declared : grammar.symbol? between = some symbol) (listed : source ∈ symbol.base.texts)
      (looksUp : LooksUp source name) : Refers grammar rule name

/-- The texts that an expansion of a rule may come to, placeholders aside. -/
inductive Reads (grammar : Grammar) (rule : String) : String → Prop
  | own {text : String} (inside : Encloses rule text) : Reads grammar rule text
  | declared {name source text : String} {symbol : Symbol} (refers : Refers grammar rule name)
      (declared : grammar.symbol? name = some symbol) (listed : source ∈ symbol.base.texts)
      (inside : Encloses source text) : Reads grammar rule text

/-- A name that an expansion of a rule may pop. -/
def Pops (grammar : Grammar) (rule name : String) : Prop :=
  ∃ text body, Reads grammar rule text ∧ body ∈ bodies text ∧ Action.parse body = .pop name

/-- A name that an expansion of a rule may show the placeholder of: it is not declared, or declared
without an alternative of its own, or popped. -/
def Shows (grammar : Grammar) (rule name : String) : Prop :=
  Refers grammar rule name ∧ ∀ symbol, grammar.symbol? name = some symbol →
    symbol.base.defaults = [] ∨ Pops grammar rule name

section

variable {grammar : Grammar} {rule text name body inner : String}

theorem Refers.names (refers : Refers grammar rule name) : ∃ text, Names text name := by
  cases refers with
  | own looksUp | through _ _ _ looksUp => exact looksUp.names

theorem Reads.refers (reads : Reads grammar rule text) (names : Names text name) :
    Refers grammar rule name := by
  cases reads with
  | own inside => exact .own (looksUp_of_names inside names)
  | declared refers declared listed inside =>
    exact .through refers declared listed (looksUp_of_names inside names)

theorem Reads.run (reads : Reads grammar rule text) (body_mem : body ∈ bodies text)
    (inner_mem : inner ∈ (Action.parse body).texts) : Reads grammar rule inner := by
  cases reads with
  | own inside => exact .own (.run inside body_mem inner_mem)
  | declared refers declared listed inside =>
    exact .declared refers declared listed (.run inside body_mem inner_mem)

end

/-- What may come about when a rule is expanded, explained by the texts and names of its
closure. -/
inductive Explained (grammar : Grammar) (rule : String) : Event → Prop
  | incidental {event : Event} (free : event.Incidental) : Explained grammar rule event
  | reading {text : String} {problem : Problem} (reads : Reads grammar rule text)
      (met : problem ∈ (Scanned.ofRule text).problems) : Explained grammar rule (.noted problem)
  | heading {text raw : String} {problem : Problem} (reads : Reads grammar rule text)
      (tag : ⟨.tag, raw⟩ ∈ (Scanned.ofRule text).segments)
      (met : problem ∈ (Scanned.ofRule raw).problems) : Explained grammar rule (.noted problem)
  | showing {name : String} {problem : Problem} (shows : Shows grammar rule name)
      (met : problem ∈ (Scanned.ofRule (placeholder name)).problems) :
      Explained grammar rule (.noted problem)
  | selected {name : String} {chosen : Option String} (refers : Refers grammar rule name) :
      Explained grammar rule (.selected name chosen)
  | missing {name : String} (refers : Refers grammar rule name)
      (undeclared : grammar.symbol? name = none) :
      Explained grammar rule (.noted (.missingSymbol name))
  | emptied {name : String} (refers : Refers grammar rule name) (pops : Pops grammar rule name) :
      Explained grammar rule (.noted (.emptyRuleStack name))
  | barren {name : String} {symbol : Symbol} (refers : Refers grammar rule name)
      (declared : grammar.symbol? name = some symbol) (bare : symbol.base.defaults = []) :
      Explained grammar rule (.noted (.noDefaultRules name))

/-- What an expansion of a rule leaves of a grammar: some declared sets may have been popped. -/
structure Grammar.Leaves (grammar : Grammar) (rule : String) (later : Grammar) : Prop where
  named : later.Named
  alone : later.subgrammars = []
  marks : ∀ key, later.mark? key = grammar.mark? key
  sets : ∀ key, later.setsOn key ⊆ grammar.setsOn key
  unpopped : ∀ key, ¬ Pops grammar rule key → later.setsOn key = grammar.setsOn key

namespace Grammar

variable {grammar later next : Grammar} {rule text key : String}

namespace Leaves

theorem refl (rule : String) (named : grammar.Named) (alone : grammar.subgrammars = []) :
    grammar.Leaves rule grammar where
  named := named
  alone := alone
  marks _ := rfl
  sets _ := List.Subset.refl _
  unpopped _ _ := rfl

variable (leaves : grammar.Leaves rule later)
include leaves

theorem of_pop (pops : Pops grammar rule key) {set : RuleSet}
    (popped : later.pop key = .ok (set, next)) : grammar.Leaves rule next where
  named := leaves.named.of_pop popped
  alone := (subgrammars_of_pop popped).trans leaves.alone
  marks other := (mark?_of_pop popped other).trans (leaves.marks other)
  sets other := by
    refine List.Subset.trans ?_ (leaves.sets other)
    rw [setsOn_of_pop popped other]
    split
    · next same =>
      subst same
      exact List.subset_cons_self _ _
    · exact List.Subset.refl _
  unpopped other unpopped := by
    have different : other ≠ key := fun same => unpopped (same ▸ pops)
    have before := setsOn_of_pop popped other
    rw [if_neg different] at before
    exact before.symm.trans (leaves.unpopped other unpopped)

theorem select (key : String) (origin : Option Place) (path : List String) (rolls : Rolls) :
    grammar.Leaves rule (later.select key origin path rolls).grammar where
  named := leaves.named.select key origin path rolls
  alone := subgrammars_select_of_alone later key origin path rolls leaves.alone
  marks other := (mark?_select later key origin path rolls other).trans (leaves.marks other)
  sets other := by
    rw [setsOn_select]
    exact leaves.sets other
  unpopped other unpopped := by
    rw [setsOn_select]
    exact leaves.unpopped other unpopped

/-- A name stands for a symbol if it is declared. -/
theorem symbol?_isSome (key : String) :
    (later.symbol? key).isSome = (grammar.symbol? key).isSome := by
  have same := congrArg Option.isSome (leaves.marks key)
  simpa only [mark?, Option.isSome_map] using same

variable (pristine : grammar.Pristine)
include pristine

/-- What stands on a stack is what was declared. -/
theorem declared {symbol : Symbol} (found : later.symbol? key = some symbol) {set : RuleSet}
    (held : set ∈ symbol.stack) :
    ∃ own, grammar.symbol? key = some own ∧ set.clear = own.base := by
  have stands : set.clear ∈ later.setsOn key := by
    rw [setsOn, found]
    exact List.mem_map_of_mem held
  have known := leaves.symbol?_isSome key
  rw [found, Option.isSome_some] at known
  obtain ⟨own, declared⟩ := Option.isSome_iff_exists.mp known.symm
  have original := leaves.sets key stands
  rw [pristine.setsOn (Keyed.mem_of_lookup declared)] at original
  exact ⟨own, declared, List.mem_singleton.mp original⟩

/-- A condition on the way is one that was declared. -/
theorem condition_declared {path : List String} {condition : String}
    (found : ((later.ruleSet? key).bind (·.descend? path)).bind (·.condition?) = some condition) :
    ∃ own, grammar.symbol? key = some own ∧ condition ∈ own.base.texts := by
  obtain ⟨set, stands, asks⟩ := Option.bind_eq_some_iff.mp found
  obtain ⟨outer, read, descends⟩ := Option.bind_eq_some_iff.mp stands
  simp only [ruleSet?, leaves.alone] at read
  cases owned : later.symbol? key with
  | none =>
    rw [owned] at read
    contradiction
  | some symbol =>
    rw [owned] at read
    obtain ⟨own, declared, same⟩ := leaves.declared pristine owned (List.mem_of_head? read)
    refine ⟨own, declared, ?_⟩
    rw [← same, RuleSet.texts_clear]
    exact RuleSet.texts_descend? descends (RuleSet.condition_mem_texts asks)

end Leaves

/-- What a selection for a name comes to, where some of the declared sets may have been popped. -/
inductive Offers (grammar : Grammar) (rule key : String) : Option String → List Problem → Prop
  | missing (undeclared : grammar.symbol? key = none) :
      Offers grammar rule key (some (placeholder key)) [.missingSymbol key]
  | emptied {own : Symbol} (declared : grammar.symbol? key = some own)
      (pops : Pops grammar rule key) :
      Offers grammar rule key (some (placeholder key)) [.emptyRuleStack key]
  | barren {own : Symbol} (declared : grammar.symbol? key = some own)
      (bare : own.base.defaults = []) : Offers grammar rule key none [.noDefaultRules key]
  | chosen {own : Symbol} {text : String} (declared : grammar.symbol? key = some own)
      (listed : text ∈ alternatives own.base) : Offers grammar rule key (some text) []

theorem Leaves.offers (leaves : grammar.Leaves rule later) (pristine : grammar.Pristine)
    (key : String) (origin : Option Place) (path : List String) (rolls : Rolls) :
    Offers grammar rule key (later.select key origin path rolls).rule
      (later.select key origin path rolls).problems := by
  cases owned : later.symbol? key with
  | none =>
    have unknown := leaves.symbol?_isSome key
    rw [owned, Option.isSome_none] at unknown
    simp only [Grammar.select, owned, leaves.alone, selectAmong?]
    exact .missing (Option.isSome_eq_false_iff.mp unknown.symm |> Option.isNone_iff_eq_none.mp)
  | some symbol =>
    have named := leaves.named.key_of_symbol? owned
    have known := leaves.symbol?_isSome key
    rw [owned, Option.isSome_some] at known
    obtain ⟨own, declared⟩ := Option.isSome_iff_exists.mp known.symm
    cases stack : symbol.stack with
    | nil =>
      have pops : Pops grammar rule key := by
        by_contra unpopped
        have sets := leaves.unpopped key unpopped
        rw [pristine.setsOn (Keyed.mem_of_lookup declared), setsOn, owned] at sets
        simp only [Option.map_some, Option.getD_some, Symbol.sets, Symbol.bare, stack,
          List.map_nil, List.nil_eq, reduceCtorEq] at sets
      simp only [Grammar.select, owned, Symbol.select, Symbol.selectUnlogged, stack, named]
      exact .emptied declared pops
    | cons top below =>
      obtain ⟨own, declared, same⟩ := leaves.declared pristine owned (stack ▸ List.mem_cons_self)
      cases selects : top.select? rolls path with
      | none =>
        have bare : top.defaults = [] := by
          by_contra offers
          obtain ⟨_, success⟩ := RuleSet.exists_select? offers rolls path
          exact absurd (selects.symm.trans success) (Option.some_ne_none _).symm
        simp only [Grammar.select, owned, Symbol.select, Symbol.selectUnlogged, stack, selects,
          named]
        refine .barren declared ?_
        rw [← same, RuleSet.defaults_clear, bare]
      | some selected =>
        simp only [Grammar.select, owned, Symbol.select, Symbol.selectUnlogged, stack, selects]
        refine .chosen declared ?_
        rw [← same, RuleSet.alternatives_clear]
        exact RuleSet.rule_mem_alternatives selects

end Grammar

/-- A text that an expansion reads as a rule: one of its closure, or a placeholder. -/
def Scans (grammar : Grammar) (rule text : String) : Prop :=
  Reads grammar rule text ∨ ∃ name, Shows grammar rule name ∧ text = placeholder name

namespace Scans

variable {grammar : Grammar} {rule text : String}

theorem tame (tame : ∀ text, Reads grammar rule text → Tame text)
    (scans : Scans grammar rule text) : Tame text := by
  rcases scans with reads | ⟨name, shows, rfl⟩
  · exact tame text reads
  · obtain ⟨_, names⟩ := shows.1.names
    exact tame_placeholder names

/-- A text with a tag is no placeholder. -/
theorem reads_of_tag {raw : String} (scans : Scans grammar rule text)
    (tag : ⟨.tag, raw⟩ ∈ (Scanned.ofRule text).segments) : Reads grammar rule text := by
  rcases scans with reads | ⟨name, shows, rfl⟩
  · exact reads
  · obtain ⟨_, names⟩ := shows.1.names
    rw [segments_placeholder names] at tag
    cases List.mem_singleton.mp tag

/-- A text that runs something is no placeholder. -/
theorem reads_of_body {body : String} (scans : Scans grammar rule text)
    (runs : body ∈ bodies text) : Reads grammar rule text := by
  rcases scans with reads | ⟨name, shows, rfl⟩
  · exact reads
  · obtain ⟨_, names⟩ := shows.1.names
    rw [bodies_placeholder names] at runs
    contradiction

theorem refers {name : String} (scans : Scans grammar rule text) (names : Names text name) :
    Refers grammar rule name := by
  have tagged := names
  obtain ⟨raw, _, tag, _⟩ := tagged
  exact (scans.reads_of_tag tag).refers names

end Scans

/-- What a selection offers is read, if anything, and otherwise a placeholder. -/
theorem Grammar.Offers.scans {grammar : Grammar} {rule key : String} {chosen : Option String}
    {problems : List Problem} (offers : Offers grammar rule key chosen problems)
    (refers : Refers grammar rule key) : Scans grammar rule (chosen.getD (placeholder key)) := by
  cases offers with
  | missing undeclared =>
    refine .inr ⟨key, ⟨refers, fun symbol declared => ?_⟩, rfl⟩
    exact absurd (undeclared.symm.trans declared) (Option.some_ne_none symbol).symm
  | emptied declared pops => exact .inr ⟨key, ⟨refers, fun _ _ => .inr pops⟩, rfl⟩
  | barren declared bare =>
    refine .inr ⟨key, ⟨refers, fun symbol found => .inl ?_⟩, rfl⟩
    rwa [Option.some.inj (found.symm.trans declared)]
  | chosen declared listed =>
    exact .inl (.declared refers declared (List.mem_append_right _ listed) .self)

/-- The problems of a selection are explained. -/
theorem Grammar.Offers.explained {grammar : Grammar} {rule key : String} {chosen : Option String}
    {problems : List Problem} (offers : Offers grammar rule key chosen problems)
    (refers : Refers grammar rule key) :
    ∀ problem ∈ problems, Explained grammar rule (.noted problem) := by
  cases offers with
  | missing undeclared => exact List.forall_mem_singleton.mpr (.missing refers undeclared)
  | emptied _ pops => exact List.forall_mem_singleton.mpr (.emptied refers pops)
  | barren declared bare => exact List.forall_mem_singleton.mpr (.barren refers declared bare)
  | chosen => exact List.forall_mem_nil _

/-- The regime of expansions of a rule whose closure is tame, in a grammar just built. -/
def Grammar.Pristine.regime {grammar : Grammar} (pristine : grammar.Pristine) {rule : String}
    (tame : ∀ text, Reads grammar rule text → Tame text) : Regime where
  reads := Scans grammar rule
  keeps := grammar.Leaves rule
  admits := Explained grammar rule
  tags scans tag := (scans.tame tame).tags _ .self _ tag
  pushless scans runs := (scans.tame tame).pushless _ .self _ runs _ _
  calls scans runs called :=
    .inl ((scans.reads_of_body runs).run runs (called ▸ List.mem_singleton_self _))
  pops scans runs pop leaves popped :=
    leaves.of_pop ⟨_, _, scans.reads_of_body runs, runs, pop⟩ popped
  asks scans names leaves found := by
    obtain ⟨own, declared, listed⟩ := leaves.condition_declared pristine found
    exact .inl (.declared (scans.refers names) declared listed .self)
  selects scans names leaves origin path rolls :=
    ⟨leaves.select _ origin path rolls,
      (leaves.offers pristine _ origin path rolls).scans (scans.refers names)⟩
  selection scans names leaves origin path rolls :=
    ⟨.selected (scans.refers names),
      (leaves.offers pristine _ origin path rolls).explained (scans.refers names)⟩
  reading scans met := by
    rcases scans with reads | ⟨name, shows, rfl⟩
    · exact .reading reads met
    · exact .showing shows met
  heading scans tag met := .heading (scans.reads_of_tag tag) tag met
  incidental := .incidental

/-- An expansion of a rule whose closure is tame is not cut short, and all that is met in it is
explained. -/
theorem Grammar.Pristine.expandWith_explained {grammar : Grammar} (pristine : grammar.Pristine)
    (alone : grammar.subgrammars = []) {rule : String}
    (tame : ∀ text, Reads grammar rule text → Tame text) (options : ExpandOptions)
    (rolls : Rolls) :
    (∃ root, (grammar.expandWith rule options rolls).1 = .ok root) ∧
      ∀ event ∈ (grammar.expandWith rule options rolls).2.events, Explained grammar rule event := by
  obtain ⟨succeeds, holds⟩ := (pristine.regime tame).expandWith (.inl (.own .self))
    (.refl rule pristine.named alone) options rolls
  exact ⟨succeeds, fun event member => holds.admits event (List.mem_reverse.mp member)⟩

end TextGrammar
