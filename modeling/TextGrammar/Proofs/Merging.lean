import TextGrammar.Proofs.Mapped

/-! # Merging and clearing

A merge takes symbols over as they are, with their stacks and with the mark of having come into
being by a push; clearing drops what bears the mark. So clearing before a merge and after it come to
the same, except where one grammar declares a symbol that only a push made in the other: after the
merge this declaration is lost.
-/

namespace TextGrammar

namespace Grammar

variable {grammar other : Grammar}

/-- After a merge a name is the other grammar's if it is known there. -/
theorem symbol?_merge (ordered : other.Ordered) (key : String) :
    (grammar.merge other).symbol? key = (other.symbol? key).or (grammar.symbol? key) :=
  Keyed.lookup_overlay ordered.symbols key

/-- Clearing leaves the declared symbols, cleared. -/
theorem symbol?_clear (ordered : grammar.Ordered) (key : String) :
    grammar.clear.symbol? key =
      ((grammar.symbol? key).filter (!·.dynamic)).map Symbol.clear := by
  rw [clear_eq]
  exact (Keyed.lookup_map Symbol.clear key _).trans
    (congrArg _ (ordered.symbols.lookup_filter (!·.dynamic) key))

theorem Ordered.clear (ordered : grammar.Ordered) : grammar.clear.Ordered :=
  (renews_clear grammar ordered).2

/-- A name that one grammar declares, and that another knows by a push only. -/
def Displaces (other grammar : Grammar) (key : String) : Prop :=
  grammar.mark? key = some false ∧ other.mark? key = some true

instance (other grammar : Grammar) (key : String) : Decidable (other.Displaces grammar key) :=
  inferInstanceAs (Decidable (_ ∧ _))

section

variable (ordered : grammar.Ordered) (orderedOther : other.Ordered) (key : String)
include ordered orderedOther

theorem symbol?_clear_merge : (grammar.merge other).clear.symbol? key =
    (((other.symbol? key).or (grammar.symbol? key)).filter (!·.dynamic)).map Symbol.clear := by
  rw [symbol?_clear (ordered.merge orderedOther), symbol?_merge orderedOther]

theorem symbol?_merge_clear : (grammar.clear.merge other.clear).symbol? key =
    (((other.symbol? key).filter (!·.dynamic)).map Symbol.clear).or
      (((grammar.symbol? key).filter (!·.dynamic)).map Symbol.clear) := by
  rw [symbol?_merge orderedOther.clear, symbol?_clear ordered, symbol?_clear orderedOther]

variable {key}

/-- A displaced name is lost by clearing after the merge, and found by clearing before it. -/
theorem lost_of_displaces (displaces : other.Displaces grammar key) :
    (grammar.merge other).clear.symbol? key = none ∧
      ((grammar.clear.merge other.clear).symbol? key).isSome := by
  obtain ⟨declared, pushed⟩ := displaces
  obtain ⟨symbol, known, unmarked⟩ := Option.map_eq_some_iff.mp declared
  obtain ⟨newer, found, marked⟩ := Option.map_eq_some_iff.mp pushed
  rw [symbol?_clear_merge ordered orderedOther, symbol?_merge_clear ordered orderedOther, known,
    found]
  constructor
  · simp [marked]
  · simp [marked, unmarked]

theorem symbol?_clear_merge_of_not_displaces (keeps : ¬ other.Displaces grammar key) :
    (grammar.merge other).clear.symbol? key =
      (grammar.clear.merge other.clear).symbol? key := by
  rw [symbol?_clear_merge ordered orderedOther, symbol?_merge_clear ordered orderedOther]
  simp only [Displaces, mark?] at keeps
  cases found : other.symbol? key with
  | none => simp
  | some newer =>
    cases marked : newer.dynamic with
    | false => simp [Option.filter_some, marked]
    | true =>
      cases known : grammar.symbol? key with
      | none => simp [Option.filter_some, marked]
      | some symbol =>
        have pushed : symbol.dynamic = true := by simpa [found, known, marked] using keeps
        simp [Option.filter_some, marked, pushed]

end

/-- Clearing after a merge comes to the same as clearing both grammars before it, except for the
names that one grammar declares and the other knows by a push only: these are lost. -/
theorem clear_merge_eq_iff (reached : grammar.Reached) (reachedOther : other.Reached) :
    let late := (grammar.merge other).clear
    let early := grammar.clear.merge other.clear
    late.modifiers = early.modifiers ∧ late.subgrammars = early.subgrammars ∧
      (∀ key, late.symbol? key =
        if other.Displaces grammar key then none else early.symbol? key) ∧
      (late = early ↔ ∀ key, ¬ other.Displaces grammar key) := by
  intro late early
  have ordered := reached.ordered
  have orderedOther := reachedOther.ordered
  have modifiers : late.modifiers = early.modifiers := by
    simp only [late, early, clear_eq, merge]
  have subgrammars : late.subgrammars = early.subgrammars := by
    simp only [late, early, clear_eq, merge, clearAll_eq_map, List.map_append]
  refine ⟨modifiers, subgrammars, fun key => ?_, fun same key displaces => ?_, fun kept => ?_⟩
  · split
    · next displaces => exact (lost_of_displaces ordered orderedOther displaces).1
    · next keeps => exact symbol?_clear_merge_of_not_displaces ordered orderedOther keeps
  · obtain ⟨lost, found⟩ := lost_of_displaces ordered orderedOther displaces
    have missing : early.symbol? key = none := same ▸ lost
    rw [missing] at found
    contradiction
  · have symbols : late.symbols = early.symbols := by
      refine (ordered.merge orderedOther).clear.symbols.ext
        (ordered.clear.merge orderedOther.clear).symbols fun key => ?_
      exact symbol?_clear_merge_of_not_displaces ordered orderedOther (kept key)
    have settings : late.settings = early.settings := by
      simp only [late, early, clear_eq, merge]
    calc
      late = ⟨late.symbols, late.modifiers, late.subgrammars, late.settings⟩ := rfl
      _ = ⟨early.symbols, early.modifiers, early.subgrammars, early.settings⟩ := by
        rw [symbols, modifiers, subgrammars, settings]

/-- Whatever is written is declared. -/
theorem mark?_ofWritten {rules : WrittenGrammar} {settings : Settings} {key : String} {mark : Bool}
    (marked : (ofWritten rules settings).mark? key = some mark) : mark = false := by
  obtain ⟨symbol, found, rfl⟩ := Option.map_eq_some_iff.mp marked
  obtain ⟨entry, _, made⟩ := List.mem_map.mp (Keyed.mem_of_lookup found)
  cases made
  rfl

/-- A grammar with one symbol of one rule. -/
def ofOne (name rule : String) : Grammar :=
  .ofWritten (Keyed.ofEntries [(name, .one rule)]) {}

theorem reached_ofOne (name rule : String) : (ofOne name rule).Reached :=
  reached_ofWritten (.ofEntries _ _) (List.forall_mem_singleton.mpr (.one rule))

theorem Reached.push {grammar : Grammar} (reached : grammar.Reached) (name : String)
    (alternatives : List String) : (grammar.push name alternatives).Reached :=
  .used reached { stream := fun _ => default } [.push name alternatives]

end Grammar

/-- An inn whose guest gave a false name, and got a bed. -/
def inn : Grammar :=
  (Operation.runAll ⟨.ofOne "guest" "Ada", { stream := fun _ => default }⟩
    [.expand "[guest:Cy][bed:straw]#guest# sleeps on #bed#"]).2.grammar

/-- A barn where another guest lay. -/
def barn : Grammar :=
  (Grammar.ofOne "guest" "Bo").push "bed" ["hay"]

/-- The guest of the barn is restored, and no bed is left. -/
theorem clear_merge_eq_iff_inn :
    inn.Reached ∧ barn.Reached ∧ inn.mark? "bed" = some true ∧
      (inn.merge barn).clear = inn.clear.merge barn.clear := by
  have reachedInn : inn.Reached := .used (Grammar.reached_ofOne _ _) _ _
  have reachedBarn : barn.Reached := (Grammar.reached_ofOne _ _).push _ _
  have bed : inn.mark? "bed" = some true := by cbv
  obtain ⟨_, _, _, same⟩ := Grammar.clear_merge_eq_iff reachedInn reachedBarn
  refine ⟨reachedInn, reachedBarn, bed, same.mpr ?_⟩
  rintro key ⟨declared, pushed⟩
  rw [barn, Grammar.mark?_push] at pushed
  split at pushed
  · next same =>
    rw [same, bed] at declared
    exact Bool.noConfusion (Option.some.inj declared)
  · exact Bool.noConfusion (Grammar.mark?_ofWritten pushed)

/-- A guest whom one grammar declares and another only pushed is lost. -/
theorem clear_after_merge_loses_declared :
    let house := Grammar.ofOne "guest" "Ada"
    let stable := (Grammar.ofOne "horse" "mare").push "guest" ["Bo"]
    house.Reached ∧ stable.Reached ∧ house.mark? "guest" = some false ∧
      (house.merge stable).clear.symbol? "guest" = none ∧
      (house.merge stable).clear ≠ house.clear.merge stable.clear := by
  intro house stable
  have reachedHouse : house.Reached := Grammar.reached_ofOne _ _
  have reachedStable : stable.Reached := (Grammar.reached_ofOne _ _).push _ _
  have declared : house.mark? "guest" = some false := by cbv
  have pushed : stable.mark? "guest" = some true := by cbv
  obtain ⟨lost, found⟩ := Grammar.lost_of_displaces reachedHouse.ordered reachedStable.ordered
    ⟨declared, pushed⟩
  refine ⟨reachedHouse, reachedStable, declared, lost, fun same => ?_⟩
  rw [← same, lost] at found
  contradiction

end TextGrammar
