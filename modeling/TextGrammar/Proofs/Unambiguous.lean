import TextGrammar.Proofs.Named
import TextGrammar.Proofs.Regimes
import TextGrammar.Proofs.Views

/-! # Grammars that the linter passes never fail

An expansion fails where it meets a tag with more than one main section. In a grammar that pushes
nothing, every text that is expanded stands in a declared set, or inside such a text, or is the
placeholder for the name of a tag. So if the walk of all these texts finds no flaw, no expansion
fails: selections, conditions, pops, calls and modifiers keep all sets tame.
-/

namespace TextGrammar

namespace RuleSet

mutual

theorem conditions_clear (set : RuleSet) : Lint.conditions set.clear = Lint.conditions set := by
  cases set with
  | plain pool => rfl
  | conditional condition branches pool =>
    simp only [clear, Lint.conditions, conditionsOfBranches_clear branches]

theorem conditionsOfBranches_clear (branches : List (String × RuleSet)) :
    Lint.conditionsOfBranches (clearBranches branches) = Lint.conditionsOfBranches branches := by
  cases branches with
  | nil => rfl
  | cons entry rest =>
    obtain ⟨key, set⟩ := entry
    simp only [clearBranches, Lint.conditionsOfBranches, conditions_clear set,
      conditionsOfBranches_clear rest]

end

mutual

theorem alternatives_clear (set : RuleSet) :
    Lint.alternatives set.clear = Lint.alternatives set := by
  cases set with
  | plain pool => rfl
  | conditional condition branches pool =>
    simp only [clear, Lint.alternatives, alternativesOfBranches_clear branches]
    rfl

theorem alternativesOfBranches_clear (branches : List (String × RuleSet)) :
    Lint.alternativesOfBranches (clearBranches branches) =
      Lint.alternativesOfBranches branches := by
  cases branches with
  | nil => rfl
  | cons entry rest =>
    obtain ⟨key, set⟩ := entry
    simp only [clearBranches, Lint.alternativesOfBranches, alternatives_clear set,
      alternativesOfBranches_clear rest]

end

/-- The texts of a set and of its branches: conditions and alternatives. -/
def texts (set : RuleSet) : List String :=
  Lint.conditions set ++ Lint.alternatives set

theorem texts_clear (set : RuleSet) : set.clear.texts = set.texts := by
  rw [texts, texts, conditions_clear, alternatives_clear]

variable {set inner : RuleSet} {key : String}

theorem listed_branch? (found : set.branch? key = some inner) :
    Lint.conditions inner ⊆ Lint.conditions set ∧
      Lint.alternatives inner ⊆ Lint.alternatives set := by
  have listed (branches : List (String × RuleSet)) (found : branches.lookup key = some inner) :
      Lint.conditions inner ⊆ Lint.conditionsOfBranches branches ∧
        Lint.alternatives inner ⊆ Lint.alternativesOfBranches branches := by
    induction branches with
    | nil => contradiction
    | cons entry rest ih =>
      obtain ⟨other, set⟩ := entry
      rw [List.lookup_cons] at found
      cases here : key == other with
      | true =>
        simp only [here, Option.some.injEq] at found
        subst found
        exact ⟨List.subset_append_left .., List.subset_append_left ..⟩
      | false =>
        simp only [here] at found
        obtain ⟨conditions, alternatives⟩ := ih found
        exact ⟨List.subset_append_of_subset_right _ conditions,
          List.subset_append_of_subset_right _ alternatives⟩
  cases set with
  | plain pool => contradiction
  | conditional condition branches pool =>
    obtain ⟨conditions, alternatives⟩ := listed branches found
    exact ⟨List.subset_cons_of_subset _ conditions,
      List.subset_append_of_subset_right _ alternatives⟩

theorem texts_branch? (found : set.branch? key = some inner) : inner.texts ⊆ set.texts := by
  obtain ⟨conditions, alternatives⟩ := listed_branch? found
  exact List.append_subset.mpr ⟨List.subset_append_of_subset_left _ conditions,
    List.subset_append_of_subset_right _ alternatives⟩

theorem texts_descend? {path : List String} (found : set.descend? path = some inner) :
    inner.texts ⊆ set.texts := by
  induction path generalizing set with
  | nil =>
    cases found
    exact List.Subset.refl _
  | cons key rest ih =>
    obtain ⟨branch, here, goesOn⟩ := Option.bind_eq_some_iff.mp found
    exact List.Subset.trans (ih goesOn) (texts_branch? here)

theorem condition_mem_texts {condition : String} (found : set.condition? = some condition) :
    condition ∈ set.texts := by
  cases set with
  | plain pool => contradiction
  | conditional _ branches pool =>
    cases found
    exact List.mem_cons_self

theorem rule_mem_of_selectDefault? {rolls : Rolls} {selected : Selected}
    (success : set.selectDefault? rolls = some selected) :
    selected.rule ∈ Lint.alternatives set := by
  obtain ⟨rule, found, rfl⟩ := Option.map_eq_some_iff.mp success
  have member := List.mem_of_getElem? found
  cases set with
  | plain pool => exact member
  | conditional condition branches pool => exact List.mem_append_left _ member

/-- What is selected from a set is one of its alternatives. -/
theorem rule_mem_alternatives {path : List String} {rolls : Rolls} {selected : Selected}
    (success : set.select? rolls path = some selected) :
    selected.rule ∈ Lint.alternatives set := by
  induction path generalizing set selected with
  | nil => exact rule_mem_of_selectDefault? success
  | cons key rest ih =>
    simp only [select?] at success
    split at success
    · next inner chosen =>
      obtain ⟨branch, found, selects⟩ := Option.bind_eq_some_iff.mp chosen
      cases success
      have inside : inner.rule ∈ Lint.alternatives branch := ih selects
      exact (listed_branch? found).2 inside
    · exact rule_mem_of_selectDefault? success

theorem rule_mem_texts {path : List String} {rolls : Rolls} {selected : Selected}
    (success : set.select? rolls path = some selected) : selected.rule ∈ set.texts :=
  List.mem_append_right _ (rule_mem_alternatives success)

end RuleSet

/-- A grammar on its own in which every set on a stack holds tame texts only. -/
structure Grammar.Tamed (grammar : Grammar) : Prop where
  named : grammar.Named
  alone : grammar.subgrammars = []
  texts : ∀ key, ∀ set ∈ grammar.setsOn key, ∀ text ∈ set.texts, Tame text

namespace Grammar.Tamed

variable {grammar next : Grammar} {key : String} (tamed : grammar.Tamed)
include tamed

/-- The texts of the set that a selection would read are tame. -/
theorem top {symbol : Symbol} (found : grammar.symbol? key = some symbol) {set : RuleSet}
    (held : set ∈ symbol.stack) {text : String} (member : text ∈ set.texts) : Tame text := by
  have stands : set.clear ∈ grammar.setsOn key := by
    rw [setsOn, found]
    exact List.mem_map_of_mem held
  exact tamed.texts key _ stands text (set.texts_clear ▸ member)

theorem ruleSet? {set : RuleSet} (found : grammar.ruleSet? key = some set) {text : String}
    (member : text ∈ set.texts) : Tame text := by
  simp only [Grammar.ruleSet?, tamed.alone] at found
  cases owned : grammar.symbol? key with
  | none =>
    rw [owned] at found
    contradiction
  | some symbol =>
    rw [owned] at found
    exact tamed.top owned (List.mem_of_head? found) member

theorem of_pop {set : RuleSet} (popped : grammar.pop key = .ok (set, next)) : next.Tamed where
  named := tamed.named.of_pop popped
  alone := (subgrammars_of_pop popped).trans tamed.alone
  texts other held member := by
    have before := setsOn_of_pop popped other
    refine tamed.texts other held ?_
    rw [before]
    split
    · next same => exact List.mem_cons_of_mem _ (same ▸ member)
    · exact member

theorem select (origin : Option Place) (path : List String) (rolls : Rolls) :
    (grammar.select key origin path rolls).grammar.Tamed where
  named := tamed.named.select key origin path rolls
  alone := subgrammars_select_of_alone grammar key origin path rolls tamed.alone
  texts other set held :=
    tamed.texts other set (setsOn_select grammar key origin path rolls other ▸ held)

/-- What is selected for the name of a tag is tame. -/
theorem selected {rule text : String} (names : Names rule key) (origin : Option Place)
    (path : List String) (rolls : Rolls)
    (success : (grammar.select key origin path rolls).rule = some text) : Tame text := by
  simp only [Grammar.select] at success
  cases owned : grammar.symbol? key with
  | none =>
    rw [owned, tamed.alone] at success
    cases success
    exact tame_placeholder names
  | some symbol =>
    rw [owned] at success
    simp only [Symbol.select, Symbol.selectUnlogged] at success
    cases stack : symbol.stack with
    | nil =>
      rw [stack] at success
      cases success
      rw [tamed.named.key_of_symbol? owned]
      exact tame_placeholder names
    | cons top below =>
      cases selects : top.select? rolls path with
      | none => simp only [stack, selects, reduceCtorEq] at success
      | some taken =>
        simp only [stack, selects] at success
        cases success
        exact tamed.top owned (stack ▸ List.mem_cons_self) (RuleSet.rule_mem_texts selects)

/-- What is expanded for the name of a tag is tame. -/
theorem offered {rule : String} (names : Names rule key) (origin : Option Place)
    (path : List String) (rolls : Rolls) :
    Tame ((grammar.select key origin path rolls).rule.getD (placeholder key)) := by
  cases chosen : (grammar.select key origin path rolls).rule with
  | none => exact tame_placeholder names
  | some text => exact tamed.selected names origin path rolls chosen

/-- The condition that a selection would evaluate is tame. -/
theorem condition {path : List String} {condition : String}
    (found : ((grammar.ruleSet? key).bind (·.descend? path)).bind (·.condition?) =
      some condition) : Tame condition := by
  obtain ⟨set, stands, asks⟩ := Option.bind_eq_some_iff.mp found
  obtain ⟨outer, top, descends⟩ := Option.bind_eq_some_iff.mp stands
  exact tamed.ruleSet? top (RuleSet.texts_descend? descends (RuleSet.condition_mem_texts asks))

end Grammar.Tamed

/-- The regime of tame rules in tamed grammars. -/
def tameRegime : Regime where
  reads := Tame
  keeps := Grammar.Tamed
  admits _ := True
  tags tame tag := tame.tags _ .self _ tag
  pushless tame runs := tame.pushless _ .self _ runs _ _
  calls tame runs called := tame.inner (.run .self runs (called ▸ List.mem_singleton_self _))
  pops _ _ _ tamed popped := tamed.of_pop popped
  asks _ _ tamed found := tamed.condition found
  selects _ names tamed origin path rolls :=
    ⟨tamed.select origin path rolls, tamed.offered names origin path rolls⟩
  selection _ _ _ _ _ _ := ⟨trivial, fun _ _ => trivial⟩
  reading _ _ := trivial
  heading _ _ _ := trivial
  incidental _ := trivial

/-- In a tamed grammar a tame rule is expanded whatever the options are. -/
theorem Grammar.Tamed.expandWith {grammar : Grammar} (tamed : grammar.Tamed) {rule : String}
    (tame : Tame rule) (options : ExpandOptions) (rolls : Rolls) :
    ∃ root, (grammar.expandWith rule options rolls).1 = .ok root :=
  (tameRegime.expandWith tame tamed options rolls).1

section Linted

open Lint

variable {grammar : Grammar} {name text : String} {symbol : Symbol}

/-- What is walked of a declared symbol has no flaw if the linter finds no fault. -/
theorem flaws_eq_nil (faultless : (check grammar).faults = [])
    (declared : (name, symbol) ∈ grammar.symbols) : (referencesOf symbol).flaws = [] := by
  have faults := (List.append_eq_nil_iff.mp faultless).2
  have own := List.flatMap_eq_nil_iff.mp faults _ declared
  exact List.map_eq_nil_iff.mp (List.append_eq_nil_iff.mp own).1

/-- The walk of a declared symbol goes through its texts. -/
theorem referencesOf_includes (member : text ∈ symbol.base.texts) :
    (referencesOf symbol).Includes (.ofRule text) :=
  References.concat_includes (List.mem_map_of_mem member)

/-- The texts of a declared set are tame if the linter finds no fault and nothing pushed. -/
theorem tame_of_lint (faultless : (check grammar).faults = [])
    (pushless : pushedSymbols grammar = []) (declared : (name, symbol) ∈ grammar.symbols)
    (member : text ∈ symbol.base.texts) : Tame text := by
  have walked := referencesOf_includes member
  have unpushed : (referencesOf symbol).pushed = [] :=
    List.flatMap_eq_nil_iff.mp pushless _ declared
  exact tame_of_references (List.subset_nil.mp (flaws_eq_nil faultless declared ▸ walked.flaws))
    (List.subset_nil.mp (unpushed ▸ walked.pushed))

/-- A grammar just built that the linter passes is tamed if it pushes nothing. -/
theorem Grammar.Pristine.tamed (pristine : grammar.Pristine) (alone : grammar.subgrammars = [])
    (faultless : (check grammar).faults = []) (pushless : pushedSymbols grammar = []) :
    grammar.Tamed where
  named := pristine.named
  alone := alone
  texts key set held text member := by
    cases found : grammar.symbol? key with
    | none =>
      rw [Grammar.setsOn, found] at held
      contradiction
    | some symbol =>
      have stands : (key, symbol) ∈ grammar.symbols := Keyed.mem_of_lookup found
      rw [pristine.setsOn stands] at held
      exact tame_of_lint faultless pushless stands (List.mem_singleton.mp held ▸ member)

/-- If the linter finds no fault in a grammar just built, and nothing that pushes, then no expansion
of any of its alternatives fails. -/
theorem linted_never_fails (built : grammar.Built) (alone : grammar.subgrammars = [])
    (pushless : pushedSymbols grammar = []) (faultless : (check grammar).faults = [])
    (declared : (name, symbol) ∈ grammar.symbols) {rule : String}
    (alternative : rule ∈ alternatives symbol.base) (rolls : Rolls) :
    (∃ root, (grammar.expand rule rolls).1 = .ok root) ∧
      ∀ options, ∃ root, (grammar.expandWith rule options rolls).1 = .ok root := by
  have tamed := built.pristine.tamed alone faultless pushless
  have tame : Tame rule :=
    tame_of_lint faultless pushless declared (List.mem_append_right _ alternative)
  exact ⟨tamed.expandWith tame _ rolls, fun options => tamed.expandWith tame options rolls⟩

end Linted

/-- A crossing whose light follows the horn, and is taken away while someone walks. -/
def crossing : Grammar :=
  .ofWritten (Keyed.ofEntries [
    ("horn", .one "honk"),
    ("light", .conditional "#horn#" [("honk", .one "red")] ["green"]),
    ("walk", .one "#light# then #[#horn#][light:POP]light#")]) {}

/-- Without its light, the crossing shows a placeholder. -/
theorem linted_never_fails_crossing :
    crossing.Built ∧ crossing.subgrammars = [] ∧ Lint.pushedSymbols crossing = [] ∧
      (Lint.check crossing).faults = [] ∧
      ∃ root, (crossing.expand "#light# then #[#horn#][light:POP]light#"
          { stream := fun _ => default }).1 = .ok root ∧
        root.text = "red then ((light))" ∧ root.errors = [.emptyRuleStack "light"] := by
  have built : crossing.Built := .ofEntries _ _
  have pushless : Lint.pushedSymbols crossing = [] := by decide +kernel
  have faultless : (Lint.check crossing).faults = [] := by decide +kernel
  obtain ⟨root, expands⟩ := (linted_never_fails built rfl pushless faultless
    (List.mem_of_getElem? (i := 2) rfl) List.mem_cons_self
    { stream := fun _ => default }).1
  have shows : (fun result : Except AmbiguousTag Node =>
      result.toOption.map fun root => (root.text, root.errors))
      (crossing.expand "#light# then #[#horn#][light:POP]light#"
        { stream := fun _ => default }).1 =
        some ("red then ((light))", [.emptyRuleStack "light"]) := by cbv
  refine ⟨built, rfl, pushless, faultless, root, expands, ?_⟩
  rw [expands] at shows
  exact Prod.mk.inj (Option.some.inj shows)

end TextGrammar
