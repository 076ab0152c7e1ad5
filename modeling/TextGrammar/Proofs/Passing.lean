import TextGrammar.Proofs.Chronicle
import TextGrammar.Proofs.Closures
import TextGrammar.Proofs.Histories

/-! # Grammars that the linter passes

If the linter finds no fault in a grammar just built, and nothing that pushes, then no text of the
closure of its rules is malformed, and all names in it are declared, but for the empty one. So a run
misses no other symbol. What can still be wrong with a text the linter does not look for: it reads
the heads of tags without a word about the empty actions in them, and it does not read placeholders.
-/

namespace TextGrammar

open Lint Engine

namespace Lint

/-- No name is lost when names are put in order. -/
theorem mem_distinct {name : String} {names : List String} (member : name ∈ names) :
    name ∈ distinct names := by
  have overlaid (entries map : List (String × Unit)) (key : String)
      (stands : (map.lookup key).isSome ∨ key ∈ Keyed.keys entries) :
      ((Keyed.overlay map entries).lookup key).isSome := by
    induction entries generalizing map with
    | nil => exact stands.resolve_right List.not_mem_nil
    | cons entry rest ih =>
      refine ih _ ?_
      rw [Keyed.lookup_insert]
      split
      · exact .inl rfl
      · next different =>
        rcases stands with held | listed
        · exact .inl held
        · exact .inr ((List.mem_cons.mp listed).resolve_left different)
  have entered : name ∈ Keyed.keys (names.map (·, ())) := by
    simpa only [Keyed.keys, List.map_map, Function.comp_def, List.map_id'] using member
  obtain ⟨_, found⟩ := Option.isSome_iff_exists.mp (overlaid _ [] name (.inr entered))
  exact List.mem_map_of_mem (f := Prod.fst) (Keyed.mem_of_lookup found)

end Lint

/-- A grammar just built, without subgrammars, in which the linter finds nothing pushed and no
fault. -/
structure Grammar.Passes (grammar : Grammar) : Prop where
  pristine : grammar.Pristine
  alone : grammar.subgrammars = []
  pushless : pushedSymbols grammar = []
  faultless : (check grammar).faults = []

/-- A text that a grammar declares: a condition or an alternative of a symbol. -/
def Grammar.Declares (grammar : Grammar) (text : String) : Prop :=
  ∃ name symbol, grammar.symbol? name = some symbol ∧ text ∈ symbol.base.texts

section

variable {grammar : Grammar} {rule source text name : String}

/-- What is read for a declared text stands inside of some declared text. -/
theorem Reads.declares (reads : Reads grammar rule text) (declares : grammar.Declares rule) :
    ∃ source, grammar.Declares source ∧ Encloses source text := by
  cases reads with
  | own inside => exact ⟨rule, declares, inside⟩
  | declared _ declared listed inside => exact ⟨_, ⟨_, _, declared, listed⟩, inside⟩

namespace Grammar.Passes

variable (passes : grammar.Passes)
include passes

/-- The walk of a declared text finds no flaw. -/
theorem flawless (declares : grammar.Declares source) : (References.ofRule source).flaws = [] := by
  obtain ⟨name, symbol, declared, listed⟩ := declares
  have flaws := flaws_eq_nil passes.faultless (Keyed.mem_of_lookup declared)
  exact List.subset_nil.mp (flaws ▸ (referencesOf_includes listed).flaws)

theorem tame (declares : grammar.Declares source) : Tame source := by
  obtain ⟨name, symbol, declared, listed⟩ := declares
  exact tame_of_lint passes.faultless passes.pushless (Keyed.mem_of_lookup declared) listed

/-- Nothing is wrong with a text inside a declared one. -/
theorem problems_eq_nil (declares : grammar.Declares source) (inside : Encloses source text) :
    (Scanned.ofRule text).problems = [] := by
  obtain ⟨levels, _, includes⟩ := References.ofRule_includes inside
  have walked := includes.flaws
  rw [passes.flawless declares] at walked
  exact List.map_eq_nil_iff.mp (List.append_eq_nil_iff.mp (List.subset_nil.mp walked)).1

/-- A name that a declared text looks up is declared, but for the empty one. -/
theorem declared_of_looksUp (declares : grammar.Declares source) (looksUp : LooksUp source name)
    (nonempty : name ≠ "") : ∃ symbol, grammar.symbol? name = some symbol := by
  obtain ⟨owner, symbol, declared, listed⟩ := declares
  have found : name ∈ (referencesOf symbol).symbols := by
    rcases looksUp with walked | ⟨empty, _⟩
    · exact (referencesOf_includes listed).symbols walked
    · contradiction
  have faults := (List.append_eq_nil_iff.mp passes.faultless).2
  have own := List.flatMap_eq_nil_iff.mp faults _ (Keyed.mem_of_lookup declared)
  have dangling := List.map_eq_nil_iff.mp (List.append_eq_nil_iff.mp own).2
  have stands := List.filter_eq_nil_iff.mp dangling name (mem_distinct found)
  simp only [passes.pushless, List.contains_nil, Bool.not_false, Bool.and_true, Bool.not_eq_true',
    Bool.not_eq_false] at stands
  exact Option.isSome_iff_exists.mp stands

/-- The texts of the closure of a declared text are tame. -/
theorem reads_tame (declares : grammar.Declares rule) (reads : Reads grammar rule text) :
    Tame text := by
  obtain ⟨_, declared, inside⟩ := reads.declares declares
  exact (passes.tame declared).inner inside

/-- Every name of the closure of a declared text is declared, but for the empty one. -/
theorem declared_of_refers (declares : grammar.Declares rule) (refers : Refers grammar rule name)
    (nonempty : name ≠ "") : ∃ symbol, grammar.symbol? name = some symbol := by
  cases refers with
  | own looksUp => exact passes.declared_of_looksUp declares looksUp nonempty
  | through _ declared listed looksUp =>
    exact passes.declared_of_looksUp ⟨_, _, declared, listed⟩ looksUp nonempty

/-- A declared text is expanded, and what is met in the run is explained. -/
theorem expandWith (declares : grammar.Declares rule) (options : ExpandOptions) (rolls : Rolls) :
    (∃ root, (grammar.expandWith rule options rolls).1 = .ok root) ∧
      ∀ event ∈ (grammar.expandWith rule options rolls).2.events, Explained grammar rule event :=
  passes.pristine.expandWith_explained passes.alone (fun _ => passes.reads_tame declares) options
    rolls

end Grammar.Passes

end

/-- If the linter finds no fault in a grammar just built, and nothing that pushes, then an expansion
of any of its alternatives misses no symbol, except where a tag names none: every other name that
the run looks up is in the closure of what the walk finds in the alternative, and is declared. -/
theorem linted_misses_no_symbol {grammar : Grammar} {name rule : String} {symbol : Symbol}
    (built : grammar.Built) (alone : grammar.subgrammars = [])
    (pushless : pushedSymbols grammar = []) (faultless : (check grammar).faults = [])
    (declared : (name, symbol) ∈ grammar.symbols) (alternative : rule ∈ alternatives symbol.base)
    (options : ExpandOptions) (rolls : Rolls) :
    ∃ root, (grammar.expandWith rule options rolls).1 = .ok root ∧
      (∀ missed, .missingSymbol missed ∈ root.errors → missed = "") ∧
      ∀ key chosen, .selected key chosen ∈ (grammar.expandWith rule options rolls).2.events →
        key ≠ "" → Refers grammar rule key ∧ ∃ own, grammar.symbol? key = some own := by
  have passes : grammar.Passes := ⟨built.pristine, alone, pushless, faultless⟩
  have declares : grammar.Declares rule :=
    ⟨name, symbol, built.pristine.ascending.lookup_of_mem declared,
      List.mem_append_right _ alternative⟩
  obtain ⟨⟨root, expanded⟩, explained⟩ := passes.expandWith declares options rolls
  refine ⟨root, expanded, fun missed carried => ?_, fun key chosen selected nonempty => ?_⟩
  · have met := explained _ ((mem_root_errors_iff expanded).mp carried)
    cases met with
    | incidental free => exact absurd rfl free.2
    | reading _ met | heading _ _ met | showing _ met =>
      have caused := Scanned.cause_ofRule _ _ met
      contradiction
    | missing refers undeclared =>
      by_contra nonempty
      obtain ⟨own, found⟩ := passes.declared_of_refers declares refers nonempty
      exact absurd (undeclared.symm.trans found) (Option.some_ne_none own).symm
  · cases explained _ selected with
    | incidental free => exact free.elim
    | selected refers => exact ⟨refers, passes.declared_of_refers declares refers nonempty⟩

/-- A watch that rings its bell before it tells the hour, which depends on the bell. -/
def watch : Grammar :=
  .ofWritten (Keyed.ofEntries [
    ("bell", .one "ding"),
    ("hour", .conditional "#bell#" [("ding", .one "noon")] ["night"]),
    ("watch", .one "#[#bell#]hour#")]) {}

/-- The watch misses nothing, and the name of the bell, which it looks up, is in the closure. -/
theorem linted_misses_no_symbol_watch :
    ∃ root, (watch.expandWith "#[#bell#]hour#" {} { stream := fun _ => default }).1 = .ok root ∧
      root.text = "noon" ∧ (∀ missed, .missingSymbol missed ∈ root.errors → missed = "") ∧
      Refers watch "#[#bell#]hour#" "bell" := by
  have built : watch.Built := .ofEntries _ _
  have pushless : pushedSymbols watch = [] := by decide +kernel
  have faultless : (check watch).faults = [] := by decide +kernel
  obtain ⟨root, expanded, misses, refers⟩ := linted_misses_no_symbol built rfl pushless faultless
    (List.mem_of_getElem? (i := 2) rfl) List.mem_cons_self {} { stream := fun _ => default }
  have shows : (fun result : Except AmbiguousTag Node => result.toOption.map (·.text))
      (watch.expandWith "#[#bell#]hour#" {} { stream := fun _ => default }).1 = some "noon" := by
    cbv
  have rings : (watch.expandWith "#[#bell#]hour#" {} { stream := fun _ => default }).2.events.any
      (fun event => event.asks "bell" == 1) = true := by cbv
  rw [expanded] at shows
  refine ⟨root, expanded, Option.some.inj shows, misses, ?_⟩
  obtain ⟨event, member, rings⟩ := List.any_eq_true.mp rings
  cases event with
  | selected key chosen =>
    simp only [Event.asks] at rings
    split at rings
    · next same => exact (refers "bell" chosen (same ▸ member) (by decide)).1
    · cases rings
  | _ => cases rings

end TextGrammar
