import TextGrammar.Proofs.Runs

/-! # Tidy pushes

Where no pop action is run and nothing but tag heads pushes, every push is undone by the tag that
made it: a run leaves the stacks as they were, counters aside, also when the ceiling was hit or an
ambiguous tag ended it. What a push does leave behind is the symbol it created, marked and with an
empty stack. That symbol hides the symbols of subgrammars with the same name until the grammar is
cleared.
-/

namespace TextGrammar

/-- Whether an event is one of a tidy run: it begins neither a pop nor a push outside of a tag
head. -/
def Event.tidy : Event → Bool
  | .activated _ (.pop _) => false
  | .activated site (.push _ _) => site == .tagHead
  | _ => true

/-- No pop is run, and only tag heads push. -/
def Tidy (events : List Event) : Prop :=
  ∀ event ∈ events, event.tidy = true

/-- Whether an event pushes onto a name. -/
def Event.pushesOnto (key : String) : Event → Bool
  | .pushed _ other _ => other == key
  | _ => false

theorem Tidy.append {first second : List Event} (tidy : Tidy (first ++ second)) :
    Tidy first ∧ Tidy second :=
  List.forall_mem_append.mp tidy

theorem Tidy.tail {event : Event} {events : List Event} (tidy : Tidy (event :: events)) :
    Tidy events :=
  fun other member => tidy other (List.mem_cons_of_mem _ member)

namespace Expansion

variable {source target : Expansion} {keys : List String} {events : List Event}

/-- Undoing pushes takes one set off for each, if so many are there. -/
theorem Closing.setsOn (closing : Closing keys source events target) {key : String}
    {sets rest : List RuleSet} (covered : source.grammar.setsOn key = sets ++ rest)
    (enough : sets.length = keys.count key) : target.grammar.setsOn key = rest := by
  induction closing generalizing sets with
  | done state =>
    rw [List.count_nil, List.length_eq_zero_iff] at enough
    rw [covered, enough, List.nil_append]
  | noted step _ ih =>
    exact ih ((step.setsOn key).trans covered) enough
  | @released source middle target other set keys events step _ ih =>
    by_cases same : other = key
    · subst other
      rw [List.count_cons_self] at enough
      obtain ⟨top, below, rfl⟩ := List.exists_cons_of_length_eq_add_one enough
      cases set with
      | none =>
        rw [step.released_none_iff.mp rfl] at covered
        contradiction
      | some set =>
        have fewer : middle.grammar.setsOn key = below ++ rest := by
          rw [step.setsOn key, covered]
          simp only [Event.restack, ↓reduceIte, List.cons_append, List.tail_cons]
        exact ih fewer (Nat.add_right_cancel enough)
    · rw [List.count_cons_of_ne same] at enough
      have kept : middle.grammar.setsOn key = sets ++ rest := by
        rw [step.setsOn key, covered]
        cases set <;> simp only [Event.restack, same, ↓reduceIte]
      exact ih kept enough

/-- In a tidy run, what lies on a stack over what was there before are the sets
that the tag head in progress pushed onto it. -/
theorem Episode.setsOn (episode : Episode keys source events target) (tidy : Tidy events)
    (key : String) : ∃ sets : List RuleSet, sets.length = keys.count key ∧
      target.grammar.setsOn key = sets ++ source.grammar.setsOn key := by
  induction episode with
  | done state => exact ⟨[], rfl, rfl⟩
  | append _ _ left right =>
    obtain ⟨lower, lowerLength, first⟩ := left tidy.append.1
    obtain ⟨upper, upperLength, second⟩ := right tidy.append.2
    refine ⟨upper ++ lower, ?_, by rw [second, first, List.append_assoc]⟩
    rw [List.length_append, List.count_append, lowerLength, upperLength, Nat.add_comm]
  | @quiet source target event step calm =>
    refine ⟨[], rfl, ?_⟩
    rw [step.setsOn key, List.nil_append]
    cases event <;> first | rfl | exact calm.elim
  | pop => exact absurd (tidy _ List.mem_cons_self) Bool.false_ne_true
  | @headPush source middle ready target other rule set events begins _ pushes ih =>
    obtain ⟨sets, length, parts⟩ := ih tidy.tail.append.1
    rw [List.count_nil, List.length_eq_zero_iff] at length
    rw [length, List.nil_append, begins.setsOn key] at parts
    rw [pushes.setsOn key, parts]
    by_cases same : other = key
    · subst other
      refine ⟨[set.clear], (List.count_singleton_self).symm, ?_⟩
      simp only [Event.restack, ↓reduceIte, List.singleton_append]
    · refine ⟨[], (List.count_eq_zero_of_not_mem (by simpa using Ne.symm same)).symm, ?_⟩
      simp only [Event.restack, same, ↓reduceIte, List.nil_append]
  | freePush free =>
    have head := tidy _ List.mem_cons_self
    exact absurd (eq_of_beq head) free
  | @nested source middle ready undone target raw depth bottom keys events closing enters _ closes
      leaves ih =>
    obtain ⟨sets, length, inside⟩ := ih tidy.tail.append.1
    have entered : middle.grammar.setsOn key = source.grammar.setsOn key := enters.setsOn key
    have left : target.grammar.setsOn key = undone.grammar.setsOn key := leaves.setsOn key
    exact ⟨[], rfl, left.trans ((closes.setsOn inside length).trans entered)⟩

theorem foldl_remark_some (key : String) (mark : Bool) (events : List Event) :
    events.foldl (Event.remark key) (some mark) = some mark := by
  induction events with
  | nil => rfl
  | cons event rest ih =>
    have kept : Event.remark key (some mark) event = some mark := by
      cases event <;> simp only [Event.remark, Option.getD_some, ite_self]
    rw [List.foldl_cons, kept, ih]

theorem foldl_remark_none (key : String) (events : List Event) :
    events.foldl (Event.remark key) none =
      if events.any (Event.pushesOnto key) then some true else none := by
  induction events with
  | nil => rfl
  | cons event rest ih =>
    rw [List.foldl_cons, List.any_cons]
    cases pushes : event.pushesOnto key with
    | true =>
      have made : Event.remark key none event = some true := by
        cases event with
        | pushed site other set =>
          simp only [Event.remark, eq_of_beq pushes, ↓reduceIte, Option.getD_none]
        | _ => contradiction
      rw [made, foldl_remark_some, Bool.true_or, if_pos rfl]
    | false =>
      have missing : Event.remark key none event = none := by
        cases event with
        | pushed site other set => simp only [Event.remark, ne_of_beq_false pushes, ↓reduceIte]
        | _ => rfl
      rw [missing, ih, Bool.false_or]

end Expansion

/-- The stacks are as they were, counters aside, and what symbols came into being are marked and
have an empty stack. -/
structure Grammar.Restored (before after : Grammar) : Prop where
  kept : ∀ key symbol, before.symbol? key = some symbol →
    ∃ later, after.symbol? key = some later ∧
      later.stack.map RuleSet.clear = symbol.stack.map RuleSet.clear
  gained : ∀ key symbol, before.symbol? key = none → after.symbol? key = some symbol →
    symbol.dynamic = true ∧ symbol.stack = []
  subgrammars : after.subgrammars.map Grammar.bareSymbol? =
    before.subgrammars.map Grammar.bareSymbol?

/-- The stacks and marks of a grammar tell whether it is restored. -/
theorem Grammar.restored_of_setsOn {before after : Grammar}
    (unmoved : ∀ key, after.setsOn key = before.setsOn key)
    (marks : ∀ key mark, before.mark? key = some mark → after.mark? key = some mark)
    (gains : ∀ key mark, before.mark? key = none → after.mark? key = some mark → mark = true)
    (subgrammars : after.subgrammars.map bareSymbol? = before.subgrammars.map bareSymbol?) :
    before.Restored after where
  subgrammars := subgrammars
  kept key symbol found := by
    have marked := marks key symbol.dynamic (by rw [mark?, found, Option.map_some])
    obtain ⟨later, present, _⟩ := Option.map_eq_some_iff.mp marked
    have same := unmoved key
    simp only [setsOn, found, present, Option.map_some, Option.getD_some] at same
    exact ⟨later, present, same⟩
  gained key symbol missing found := by
    have same := unmoved key
    simp only [setsOn, found, missing, Option.map_some, Option.map_none, Option.getD_some,
      Option.getD_none] at same
    have unmarked : before.mark? key = none := by rw [mark?, missing, Option.map_none]
    have marked : after.mark? key = some symbol.dynamic := by rw [mark?, found, Option.map_some]
    exact ⟨gains key _ unmarked marked, List.map_eq_nil_iff.mp same⟩

open Expansion

theorem Expansion.Episode.restored {source target : Expansion} {events : List Event}
    (episode : Episode [] source events target) (tidy : Tidy events) :
    source.grammar.Restored target.grammar := by
  have path := episode.path
  refine Grammar.restored_of_setsOn (fun key => ?_) (fun key mark found => ?_)
    (fun key mark missing found => ?_) path.subgrammars_eq
  · obtain ⟨sets, length, stack⟩ := episode.setsOn tidy key
    rw [stack, List.length_eq_zero_iff.mp length, List.nil_append]
  · rw [path.mark?_eq, found, foldl_remark_some]
  · rw [path.mark?_eq, missing, foldl_remark_none] at found
    split at found
    · exact (Option.some.inj found).symm
    · contradiction

/-- A run whose pushes are all scoped leaves every stack as it was, however it ends: with a text,
with the ceiling hit, or with an ambiguous tag. -/
theorem tidy_run_restores_stacks (grammar : Grammar) (rule : String) (options : ExpandOptions)
    (rolls : Rolls) (tidy : Tidy (grammar.expandWith rule options rolls).2.events) :
    grammar.Restored (grammar.expandWith rule options rolls).2.grammar :=
  (episode_expandWith grammar rule options rolls).restored tidy

/-- A tale told twice over, cut short by a tag with two symbols. -/
def brokenTale : Grammar :=
  .ofWritten [("a", .one "#[x:1][x:2]b#"), ("b", .one "#[x:3]c# #c[y:4]d#")] {}

theorem tidy_run_restores_stacks_brokenTale :
    Tidy (brokenTale.expandWith "#a#" {} { stream := fun _ => default }).2.events ∧
      brokenTale.Restored
        (brokenTale.expandWith "#a#" {} { stream := fun _ => default }).2.grammar := by
  have tidy : Tidy (brokenTale.expandWith "#a#" {} { stream := fun _ => default }).2.events := by
    rw [Tidy, ← List.all_eq_true]
    cbv
  exact ⟨tidy, tidy_run_restores_stacks brokenTale "#a#" {} _ tidy⟩

namespace Grammar

/-- Which subgrammar supplies a name that the grammar itself lacks. -/
def supplier? (grammar : Grammar) (key : String) : Option Nat :=
  match grammar.symbol? key with
  | some _ => none
  | none => grammar.subgrammars.findIdx? fun sub => (sub.symbol? key).isSome

/-- Where the grammar lacks a name, its subgrammars decide what is read. -/
theorem ruleSet?_of_missing {grammar : Grammar} {key : String}
    (missing : grammar.symbol? key = none) :
    (grammar.ruleSet? key).map RuleSet.clear =
      ((grammar.subgrammars.map bareSymbol?).findSome? (· key)).bind Symbol.top? := by
  have bared : (grammar.subgrammars.map bareSymbol?).findSome? (· key) =
      (grammar.subgrammars.findSome? (·.symbol? key)).map Symbol.bare := by
    rw [List.findSome?_map, List.map_findSome?]
    rfl
  have top (symbol : Symbol) : symbol.bare.top? = symbol.top?.map RuleSet.clear :=
    List.head?_map
  simp only [ruleSet?, missing, bared]
  cases grammar.subgrammars.findSome? (·.symbol? key) with
  | none => rfl
  | some symbol => exact (top symbol).symm

theorem supplier?_of_missing {grammar : Grammar} {key : String}
    (missing : grammar.symbol? key = none) :
    grammar.supplier? key =
      (grammar.subgrammars.map bareSymbol?).findIdx? fun symbol? => (symbol? key).isSome := by
  simp only [supplier?, missing, List.findIdx?_map, Function.comp_def, bareSymbol?,
    Option.isSome_map]

/-- Whatever symbol the grammar has of a name, a push created it. -/
def OnlyPushed (grammar : Grammar) (key : String) : Prop :=
  ∀ symbol, (key, symbol) ∈ grammar.symbols → symbol.dynamic = true

section

variable {grammar : Grammar} {key other : String} {symbol : Symbol}

theorem onlyPushed_of_missing (missing : grammar.symbol? key = none) :
    grammar.OnlyPushed key := by
  intro symbol member
  have other := List.lookup_eq_none_iff.mp missing (key, symbol) member
  rw [bne_self_eq_false] at other
  contradiction

variable (only : grammar.OnlyPushed key)
include only

theorem OnlyPushed.dynamic (found : grammar.symbol? key = some symbol) : symbol.dynamic = true :=
  only symbol (Keyed.mem_of_lookup found)

theorem OnlyPushed.insert (marked : other = key → symbol.dynamic = true) :
    OnlyPushed { grammar with symbols := Keyed.insert other symbol grammar.symbols } key := by
  intro inside member
  rcases Keyed.mem_insert member with same | held
  · cases same
    exact marked rfl
  · exact only inside held

/-- Clearing drops what only pushes created. -/
theorem OnlyPushed.symbol?_clear : grammar.clear.symbol? key = none := by
  have cleared : grammar.clear.symbols =
      (grammar.symbols.filter (!·.2.dynamic)).map fun entry => (entry.1, entry.2.clear) := by
    cases grammar
    rfl
  rw [symbol?, cleared, List.lookup_eq_none_iff]
  intro entry member
  obtain ⟨⟨name, symbol⟩, declared, rfl⟩ := List.mem_map.mp member
  obtain ⟨held, unmarked⟩ := List.mem_filter.mp declared
  refine bne_iff_ne.mpr ?_
  rintro rfl
  rw [only symbol held] at unmarked
  contradiction

end

end Grammar

/-- Nothing but loading declares a symbol: no step of a run does. -/
theorem Expansion.Step.onlyPushed {source target : Expansion} {event : Event} {key : String}
    (step : Step source event target) (only : source.grammar.OnlyPushed key) :
    target.grammar.OnlyPushed key := by
  cases step with
  | pushed site other alternatives =>
    refine only.insert fun same => ?_
    cases found : source.grammar.symbol? other with
    | none => rfl
    | some symbol =>
      have marked : symbol.dynamic = true := only.dynamic (same ▸ found)
      exact marked
  | took kind popped =>
    obtain ⟨symbol, below, found, _, rfl⟩ := Grammar.eq_of_pop popped
    refine only.insert fun same => ?_
    have marked : symbol.dynamic = true := only.dynamic (same ▸ found)
    exact marked
  | selected other origin path =>
    change (source.grammar.select other origin path source.rolls).grammar.OnlyPushed key
    simp only [Grammar.select]
    cases found : source.grammar.symbol? other with
    | some symbol =>
      refine only.insert fun same => ?_
      rw [Symbol.dynamic_select]
      exact only.dynamic (same ▸ found)
    | none =>
      cases Grammar.selectAmong? other path source.rolls source.grammar.subgrammars with
      | none => exact only
      | some outcome => exact only
  | _ => exact only

/-- What a run with scoped pushes only does to the resolution of a name that the grammar lacks: a
name that was not pushed onto is supplied as before, and one that was has a symbol of its own now,
marked and empty, which hides the subgrammars until clearing removes it. -/
theorem tidy_run_resolution (grammar : Grammar) (rule : String) (options : ExpandOptions)
    (rolls : Rolls) (tidy : Tidy (grammar.expandWith rule options rolls).2.events) (key : String)
    (missing : grammar.symbol? key = none) :
    let after := (grammar.expandWith rule options rolls).2
    (after.events.any (Event.pushesOnto key) = true →
      (∃ symbol, after.grammar.symbol? key = some symbol ∧ symbol.dynamic = true ∧
        symbol.stack = []) ∧
      after.grammar.supplier? key = none ∧ after.grammar.ruleSet? key = none ∧
      after.grammar.clear.symbol? key = none) ∧
    (after.events.any (Event.pushesOnto key) = false →
      after.grammar.supplier? key = grammar.supplier? key ∧
      (after.grammar.ruleSet? key).map RuleSet.clear =
        (grammar.ruleSet? key).map RuleSet.clear) := by
  intro after
  have episode := episode_expandWith grammar rule options rolls
  have restored := episode.restored tidy
  have marks := episode.path.mark?_eq key
  rw [show (start grammar rolls).grammar.mark? key = none from congrArg _ missing,
    foldl_remark_none] at marks
  constructor
  · intro pushed
    rw [if_pos pushed] at marks
    obtain ⟨symbol, found, dynamic⟩ := Option.map_eq_some_iff.mp marks
    have empty := (restored.gained key symbol missing found).2
    have only : after.grammar.OnlyPushed key :=
      episode.path.relate (fun s t => s.grammar.OnlyPushed key → t.grammar.OnlyPushed key)
        (fun _ => id) (fun first second => second ∘ first) (fun step => step.onlyPushed)
        (Grammar.onlyPushed_of_missing missing)
    refine ⟨⟨symbol, found, dynamic, empty⟩, ?_, ?_, only.symbol?_clear⟩
    · simp only [Grammar.supplier?, after, found]
    · simp only [Grammar.ruleSet?, after, found, Symbol.top?, empty, List.head?_nil]
  · intro unpushed
    rw [if_neg (Bool.eq_false_iff.mp unpushed)] at marks
    have stillMissing : after.grammar.symbol? key = none := Option.map_eq_none_iff.mp marks
    constructor
    · rw [Grammar.supplier?_of_missing stillMissing, Grammar.supplier?_of_missing missing,
        restored.subgrammars]
      rfl
    · rw [Grammar.ruleSet?_of_missing stillMissing, Grammar.ruleSet?_of_missing missing,
        restored.subgrammars]
      rfl

/-- A grammar that borrows a name. -/
def borrower : Grammar :=
  { Grammar.ofWritten [] {} with subgrammars := [.ofWritten [("x", .one "lent")] {}] }

/-- A run of the borrower that pushes onto the borrowed name in the head of a tag. -/
theorem tidy_borrower :
    Tidy (borrower.expandWith "#[x:1]b#" {} { stream := fun _ => default }).2.events := by
  rw [Tidy, ← List.all_eq_true]
  cbv

theorem tidy_run_resolution_borrower :
    Tidy (borrower.expandWith "#[x:1]b#" {} { stream := fun _ => default }).2.events ∧
      borrower.symbol? "x" = none ∧ borrower.supplier? "x" = some 0 ∧
      (borrower.expandWith "#[x:1]b#" {} { stream := fun _ => default }).2.grammar.supplier? "x" =
        none ∧
      (borrower.expandWith "#[x:1]b#" {} { stream := fun _ => default }).2.grammar.ruleSet? "x" =
        none ∧
      (borrower.expandWith "#[x:1]b#" {}
        { stream := fun _ => default }).2.grammar.clear.symbol? "x" = none := by
  have missing : borrower.symbol? "x" = none := by cbv
  have pushed : (borrower.expandWith "#[x:1]b#" {} { stream := fun _ => default }).2.events.any
      (Event.pushesOnto "x") = true := by cbv
  have resolution :=
    (tidy_run_resolution borrower "#[x:1]b#" {} _ tidy_borrower "x" missing).1 pushed
  exact ⟨tidy_borrower, missing, by cbv, resolution.2⟩

/-- Resolution does not survive every run with scoped pushes only. -/
theorem scoped_push_hides_subgrammar :
    ¬ ∀ (grammar : Grammar) (rule : String) (options : ExpandOptions) (rolls : Rolls),
      Tidy (grammar.expandWith rule options rolls).2.events →
      ∀ key, grammar.symbol? key = none → (grammar.supplier? key).isSome →
        ((grammar.expandWith rule options rolls).2.grammar.ruleSet? key).map RuleSet.clear =
          (grammar.ruleSet? key).map RuleSet.clear := by
  intro claim
  have same := claim borrower "#[x:1]b#" {} _ tidy_borrower "x" (by cbv) (by cbv)
  have hidden : ((borrower.expandWith "#[x:1]b#" {}
      { stream := fun _ => default }).2.grammar.ruleSet? "x").isNone := by cbv
  have lent : (borrower.ruleSet? "x").isSome := by cbv
  rw [Option.isNone_iff_eq_none.mp hidden, Option.map_none, eq_comm, Option.map_eq_none_iff] at same
  rw [same] at lent
  contradiction

end TextGrammar
