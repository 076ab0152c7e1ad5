import TextGrammar.Proofs.Rerun
import TextGrammar.Proofs.RoundTrip

/-! # Snapshots generate what the grammar does

The JSON of a grammar keeps the sets on top of its stacks and what lies below them is lost, as is
all else but the rules. If those sets have the falloff of default settings, a grammar read from the
JSON mirrors the one that was written; an empty stack comes back as a set without alternatives. So
with neither modifiers nor subgrammars to lose, both expand a rule to the same text, unless a pop
action reaches below what was kept.
-/

namespace TextGrammar

open Expansion

namespace RuleSet

/-- What is written of a set with one falloff is all of it but its counters. -/
theorem ofWritten_toWritten {falloff : Float} {set : RuleSet} (counted : Throughout Counted set)
    (even : Throughout (·.pool.falloff = falloff) set) :
    ofWritten falloff set.toWritten = set.clear := by
  have fresh {pool : Pool} (counted : pool.uses.length = pool.alternatives.length)
      (even : pool.falloff = falloff) : Pool.fresh falloff pool.alternatives = pool.clear := by
    simp only [Pool.fresh, Pool.clear, List.map_const', counted, even]
  induction counted with
  | @intro set here _ ih =>
    cases set with
    | plain pool => exact congrArg RuleSet.plain (fresh here even.here)
    | conditional condition branches pool =>
      simp only [toWritten, ofWritten, clear, branchesToWritten_eq_map, branchesOfWritten_eq_map,
        clearBranches_eq_map, List.map_map]
      refine congrArg₂ (RuleSet.conditional condition) ?_ (fresh here even.here)
      exact List.map_congr_left fun entry member =>
        congrArg (Prod.mk entry.1) (ih entry member (even.inward entry member))

end RuleSet

/-- What comes back of a symbol has the same set on top, or none that offers anything. -/
theorem Symbol.ground_shown {symbol : Symbol} {falloff : Float}
    (counted : symbol.EachSet (RuleSet.Throughout RuleSet.Counted))
    (even : symbol.EachSet (RuleSet.Throughout (·.pool.falloff = falloff))) (key : String) :
    Ground symbol.sets (declared key (.ofWritten falloff symbol.shown)).sets := by
  cases stack : symbol.stack with
  | nil =>
    simp only [sets, bare, shown, top?, stack, List.head?_nil, Option.map_none, Option.getD_none,
      List.map_nil]
    exact .emptied rfl
  | cons top below =>
    have held : top ∈ symbol.base :: symbol.stack :=
      List.mem_cons_of_mem _ (stack ▸ List.mem_cons_self)
    have back := RuleSet.ofWritten_toWritten (counted top held) (even top held)
    simp only [sets, bare, shown, top?, stack, declared, List.head?_cons, Option.map_some,
      Option.getD_some, back, List.map_cons, List.map_nil, RuleSet.clear_clear]
    exact .level _ _ _

namespace Grammar

/-- A grammar that can be reached is read from its JSON, if at all, as what it shows. -/
theorem Reached.eq_of_ofJson {live reloaded : Grammar} (reached : live.Reached)
    (reloads : ofJson live.toJson = .ok reloaded) : reloaded = .ofWritten live.toWritten {} := by
  obtain ⟨rules, read, made⟩ := ok_of_bind_ok reloads
  cases made
  rw [Json.eq_of_rulesOfJson_write reached.ordered.toWritten (mapped_toWritten reached.mapped) read]

/-- With settings, modifiers, subgrammars and falloff as a reloaded grammar has them, only what lies
below the tops of the stacks tells the two apart. -/
theorem Reached.mirrors {live reloaded : Grammar} (reached : live.Reached)
    (settings : live.settings = {}) (modifiers : live.modifiers = [])
    (alone : live.subgrammars = [])
    (even : live.EachSet (RuleSet.Throughout (·.pool.falloff = 1)))
    (reloads : ofJson live.toJson = .ok reloaded) : live.Mirrors (fun _ => 0) reloaded := by
  have named := (reached_ofJson reloads).named
  obtain rfl := reached.eq_of_ofJson reloads
  have back (key : String) : (ofWritten live.toWritten {}).symbol? key =
      (live.symbol? key).map fun symbol => .declared key (.ofWritten 1 symbol.shown) := by
    rw [symbol?_ofWritten, toWritten_eq_map, Keyed.lookup_map, Option.map_map]
    rfl
  exact {
    levels := fun key => by
      have ground : Ground (live.setsOn key) ((ofWritten live.toWritten {}).setsOn key) := by
        rw [setsOn, setsOn, back]
        cases found : live.symbol? key with
        | none => exact .bare
        | some symbol =>
          have counted := EachSet.symbol reached.counted.own found
          exact Symbol.ground_shown counted (EachSet.symbol even.own found) key
      exact ⟨[], _, _, rfl, rfl, rfl, ground⟩
    present := fun key => by
      rw [mark?, mark?, back]
      cases live.symbol? key <;> rfl
    named := reached.named
    twinNamed := named
    modifiers := modifiers
    settings := settings
    alone := alone
    twinAlone := rfl }

/-- A grammar that can be reached and one read from its JSON expand a rule to the same text, or to
the same ambiguous tag, and draw the same rolls, if nothing but its rules distinguishes the first
and no action pops while it does. They meet the same problems, but where one finds an empty stack,
the other may find a set without alternatives. -/
theorem reloaded_expands_alike {live reloaded : Grammar} (reached : live.Reached)
    (settings : live.settings = {}) (modifiers : live.modifiers = [])
    (alone : live.subgrammars = [])
    (even : live.EachSet (RuleSet.Throughout (·.pool.falloff = 1)))
    (reloads : ofJson live.toJson = .ok reloaded) (rule : String) (options : ExpandOptions)
    (rolls : Rolls) (unpopped : (live.expandWith rule options rolls).2.Unpopped) :
    Agree (fun node twin : Node => node.text = twin.text ∧ Soften node.errors twin.errors)
        (live.expandWith rule options rolls).1 (reloaded.expandWith rule options rolls).1 ∧
      (live.expandWith rule options rolls).2.rolls =
        (reloaded.expandWith rule options rolls).2.rolls := by
  have mirrors := reached.mirrors settings modifiers alone even reloads
  have begins : (Expansion.start live rolls).Mirrors (fun _ => 0) (.start reloaded rolls) :=
    ⟨mirrors, rfl, congrArg Settings.maxDepth mirrors.settings, rfl, rfl⟩
  obtain ⟨_, ⟨agree, _⟩, ends⟩ := mimics_expandRule rule options _ begins unpopped
  exact ⟨agree.mono fun _ _ same => ⟨same.text, same.errors⟩, ends.rolls⟩

end Grammar

/-- Weather by season, and a song. -/
def carolRules : WrittenGrammar := [
  ("season", .one "winter"),
  ("song", .one "lark"),
  ("weather", .conditional "#season#" [("winter", .many ["snow"])] ["sun"])]

/-- A carol of another season, and without its song. -/
def carol : Grammar :=
  (Operation.runAll ⟨.ofWritten (Keyed.ofEntries carolRules) {}, { stream := fun _ => default }⟩
    [.push "season" ["summer"], .pop "song"]).2.grammar

/-- A line of the carol: a push for one tag, a push that stays, and the song that is gone. -/
def carolLine : String :=
  "#weather#, #[season:winter]weather#, [mood:low]#mood# #song#"

theorem reached_carol : carol.Reached := by
  have mapped : ∀ entry ∈ carolRules, entry.2.Mapped := by
    refine List.forall_mem_cons.mpr ⟨.one _, List.forall_mem_cons.mpr ⟨.one _,
      List.forall_mem_singleton.mpr (.conditional _ _ (List.pairwise_singleton _ _) ?_)⟩⟩
    exact List.forall_mem_singleton.mpr (.many _)
  exact .used (Grammar.reached_ofWritten (.ofEntries carolRules {})
    (Datum.mapped_ofEntries mapped)) _ _

theorem even_carol : carol.EachSet (RuleSet.Throughout (·.pool.falloff = 1)) := by
  have declared : (Grammar.ofWritten (Keyed.ofEntries carolRules) {}).EachSymbol
      fun falloff _ symbol => symbol.EachSet (RuleSet.Throughout (·.pool.falloff = falloff)) :=
    Grammar.eachSymbol_ofWritten fun entry _ =>
      Symbol.eachSet_declared (RuleSet.even_ofWritten _ entry.2) entry.1
  have even : carol.EachSymbol _ := Symbol.lasting_even.kept.operations _ _ declared
  exact List.forall_mem_singleton.mpr even.own

/-- The song is missed in other words. -/
theorem reloaded_expands_alike_carol :
    let silent : Rolls := { stream := fun _ => default }
    let sung := carol.expandWith carolLine {} silent
    sung.2.Unpopped ∧ sung.1.map (·.text) = .ok "sun, snow, low ((song))" ∧
      ∃ reloaded, Grammar.ofJson carol.toJson = .ok reloaded ∧
        Agree (fun node twin : Node => node.text = twin.text ∧ Soften node.errors twin.errors)
          sung.1 (reloaded.expandWith carolLine {} silent).1 := by
  intro silent sung
  have shallow : Json.nesting carol.toJson ≤ Json.maxNesting := by
    rw [Json.nesting, Grammar.toJson, Json.write, String.toList_ofList]
    decide +kernel
  have reloads : Grammar.ofJson carol.toJson = .ok (.ofWritten carol.toWritten {}) := by
    rw [Grammar.ofJson, Grammar.toJson, Json.rulesOfJson_write reached_carol.ordered.toWritten
      (Grammar.mapped_toWritten reached_carol.mapped) shallow]
    rfl
  have runs : sung.1.map (·.text) = .ok "sun, snow, low ((song))" ∧
      sung.2.events.all (!·.beginsPop) = true := by
    simp only [sung, silent]
    cbv
  have unpopped : sung.2.Unpopped := by
    simpa only [Expansion.Unpopped, List.all_eq_true, Bool.not_eq_true'] using runs.2
  obtain ⟨alike, _⟩ := Grammar.reloaded_expands_alike reached_carol rfl rfl rfl even_carol reloads
    carolLine {} silent unpopped
  exact ⟨unpopped, runs.1, _, reloads, alike⟩

end TextGrammar
