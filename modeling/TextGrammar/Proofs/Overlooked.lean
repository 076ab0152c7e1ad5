import TextGrammar.Proofs.Inevitable
import TextGrammar.Proofs.Passing

/-! # What the linter overlooks

The linter reads the texts of a grammar, and the heads of their tags to see what they refer to. Of a
head it keeps the actions and the name, but drops what was wrong with it, and placeholders it does
not read. So where it finds no fault, two things can still be malformed in a run: an action in the
head of a tag can be empty, and a placeholder can have a stray bracket in it. Nothing else is, and
an empty action in the head of a tag is met wherever the tag is expanded.
-/

namespace TextGrammar

open Lint Engine Expansion

/-- What may be malformed in the closure of a rule though the linter finds no fault: an empty action
in the head of a tag, and a stray bracket in the name of a symbol whose placeholder may be shown. -/
inductive Overlooked (grammar : Grammar) (rule : String) : Problem → Prop
  | head {text raw : String} {position : Nat} (reads : Reads grammar rule text)
      (tag : ⟨.tag, raw⟩ ∈ (Scanned.ofRule text).segments)
      (empty : .emptyAction position ∈ (Scanned.ofRule raw).problems) :
      Overlooked grammar rule (.emptyAction position)
  | name {name : String} {symbol : Symbol} (refers : Refers grammar rule name)
      (declared : grammar.symbol? name = some symbol)
      (shown : symbol.base.defaults = [] ∨ Pops grammar rule name)
      (stray : .strayBracket ∈ (Scanned.ofRule (placeholder name)).problems) :
      Overlooked grammar rule .strayBracket

/-- What is malformed where the linter finds no fault was overlooked. -/
theorem Explained.overlooked {grammar : Grammar} {rule : String} {problem : Problem}
    (explained : Explained grammar rule (.noted problem)) (passes : grammar.Passes)
    (declares : grammar.Declares rule) (malformed : problem.cause = .reading) :
    Overlooked grammar rule problem := by
  cases explained with
  | incidental free => exact absurd malformed free.1
  | reading reads met =>
    obtain ⟨_, declared, inside⟩ := reads.declares declares
    rw [passes.problems_eq_nil declared inside] at met
    contradiction
  | heading reads tag met =>
    obtain ⟨position, rfl⟩ := emptyAction_of_tag tag met
    exact .head reads tag met
  | @showing name _ shows met =>
    obtain ⟨_, names⟩ := shows.1.names
    obtain rfl := strayBracket_of_placeholder names met
    by_cases empty : name = ""
    · subst empty
      have inert : (Scanned.ofRule (placeholder "")).problems = [] := by decide
      rw [inert] at met
      contradiction
    · obtain ⟨symbol, declared⟩ := passes.declared_of_refers declares shows.1 empty
      exact .name shows.1 declared (shows.2 symbol declared) met
  | missing | emptied | barren => contradiction

namespace Fate

/-- A problem is met. -/
def noting (problem : Problem) : Fate where
  told event := event = .noted problem
  ready _ := True
  ready_episode _ _ _ := trivial
  ready_enters _ _ := trivial

/-- What is wrong with the head of a tag is met wherever the tag is expanded. -/
theorem befalls_head {rule text raw : String} {problem : Problem} {head : TagHead}
    (inside : Encloses rule text) (tag : ⟨.tag, raw⟩ ∈ (Scanned.ofRule text).segments)
    (parsed : TagHead.parse raw = .ok head) (wrong : problem ∈ head.problems) :
    (noting problem).Befalls Short (expandNode (.root rule)) := by
  have noted : (noting problem).Befalls (fun _ => False) (Run.note head.problems) := by
    refine fun state _ => .inr (.inr ⟨_, ?_, rfl⟩)
    refine List.mem_reverse.mpr (List.mem_append_left _ (List.mem_reverse.mpr ?_))
    exact List.mem_map_of_mem wrong
  refine befalls_expandNode rfl (asks_root rule) (befalls_of_encloses inside (fun node => ?_) _)
  refine befalls_expandChildren tag (fun parent index => ?_) node
  exact befalls_expandNode rfl (asks_ofSegment SegmentKind.noConfusion)
    (befalls_expandTag_of_head parsed noted)

end Fate

/-- If the linter finds no fault in a grammar just built, and nothing that pushes, then what is
malformed in an expansion of one of its alternatives was overlooked: an empty action in the head of
a tag, or a stray bracket in the name of a symbol that shows its placeholder. And an empty action in
the head of a tag inside the alternative is met in every run, unless the ceiling is hit. -/
theorem linted_malformed_is_overlooked {grammar : Grammar} {name rule : String} {symbol : Symbol}
    (built : grammar.Built) (alone : grammar.subgrammars = [])
    (pushless : pushedSymbols grammar = []) (faultless : (check grammar).faults = [])
    (declared : (name, symbol) ∈ grammar.symbols) (alternative : rule ∈ alternatives symbol.base)
    (options : ExpandOptions) (rolls : Rolls) :
    ∃ root, (grammar.expandWith rule options rolls).1 = .ok root ∧
      (∀ problem ∈ root.errors, problem.cause = .reading → Overlooked grammar rule problem) ∧
      (options.preventRecursion = false → ∀ text raw position, Encloses rule text →
        ⟨.tag, raw⟩ ∈ (Scanned.ofRule text).segments →
        .emptyAction position ∈ (Scanned.ofRule raw).problems →
        .emptyAction position ∈ root.errors ∨
          ∃ limit raw, .recursionLimit limit raw ∈ root.errors) := by
  have passes : grammar.Passes := ⟨built.pristine, alone, pushless, faultless⟩
  have declares : grammar.Declares rule :=
    ⟨name, symbol, built.pristine.ascending.lookup_of_mem declared,
      List.mem_append_right _ alternative⟩
  obtain ⟨⟨root, expanded⟩, explained⟩ := passes.expandWith declares options rolls
  refine ⟨root, expanded, fun problem carried malformed => ?_, ?_⟩
  · have met := explained _ ((mem_root_errors_iff expanded).mp carried)
    exact met.overlooked passes declares malformed
  · intro expands text raw position inside tag empty
    obtain ⟨head, parsed⟩ := (passes.tame declares).tags text inside raw tag
    have befalls := Fate.befalls_head inside tag parsed (TagHead.problems_of_parse parsed ▸ empty)
    have told := told_expandRule expanded
    rcases Fate.met_of_expanded befalls trivial expands expanded with tripped | ⟨_, member, rfl⟩
    · exact .inr (Problem.any_isLimit_iff.mp (told.hit.symm.trans tripped))
    · exact .inl ((mem_root_errors_iff expanded).mpr member)

/-- A gate whose hinge runs an empty action, and a sign for a lock that has no alternative. -/
def gate : Grammar :=
  .ofWritten (Keyed.ofEntries [
    ("gate", .one "open"),
    ("hinge", .one "#[]gate#"),
    ("lock]", .many []),
    ("sign", .one "#lock].of[#")]) {}

/-- The empty action of the hinge is all that is malformed there, and it was overlooked. -/
theorem linted_malformed_is_overlooked_gate :
    ∃ root, (gate.expandWith "#[]gate#" {} { stream := fun _ => default }).1 = .ok root ∧
      root.errors = [.emptyAction 1] ∧ Overlooked gate "#[]gate#" (.emptyAction 1) := by
  have built : gate.Built := .ofEntries _ _
  have pushless : pushedSymbols gate = [] := by decide +kernel
  have faultless : (check gate).faults = [] := by decide +kernel
  obtain ⟨root, expanded, overlooked, _⟩ := linted_malformed_is_overlooked built rfl pushless
    faultless (List.mem_of_getElem? (i := 1) rfl) List.mem_cons_self {}
    { stream := fun _ => default }
  have carries : (gate.expandWith "#[]gate#" {} { stream := fun _ => default }).1.toOption.map
      (·.errors) = some [.emptyAction 1] := by cbv
  rw [expanded] at carries
  have errors : root.errors = [.emptyAction 1] := Option.some.inj carries
  refine ⟨root, expanded, errors, overlooked _ ?_ rfl⟩
  rw [errors]
  exact List.mem_singleton_self _

/-- The linter finds no fault in the gate, which runs nothing but an empty action; still the head of
one tag is malformed there, and so is the placeholder that another shows. -/
theorem linted_gate_is_malformed :
    gate.Built ∧ gate.subgrammars = [] ∧ pushedSymbols gate = [] ∧ (check gate).faults = [] ∧
      (∀ entry ∈ gate.symbols, ∀ text ∈ entry.2.base.texts, ∀ body ∈ bodies text, body = "") ∧
      (∃ symbol, ("hinge", symbol) ∈ gate.symbols ∧ "#[]gate#" ∈ alternatives symbol.base) ∧
      (∃ symbol, ("sign", symbol) ∈ gate.symbols ∧ "#lock].of[#" ∈ alternatives symbol.base) ∧
      (gate.expand "#[]gate#" { stream := fun _ => default }).1.toOption.map (·.errors) =
        some [.emptyAction 1] ∧
      (gate.expand "#lock].of[#" { stream := fun _ => default }).1.toOption.map (·.errors) =
        some [.noDefaultRules "lock]", .strayBracket, .missingModifier "of["] := by
  have pushless : pushedSymbols gate = [] := by decide +kernel
  have faultless : (check gate).faults = [] := by decide +kernel
  have idle : ∀ entry ∈ gate.symbols, ∀ text ∈ entry.2.base.texts, ∀ body ∈ bodies text,
      body = "" := by decide +kernel
  refine ⟨.ofEntries _ _, rfl, pushless, faultless, idle, ?_, ?_, by cbv, by cbv⟩
  · exact ⟨_, List.mem_of_getElem? (i := 1) rfl, List.mem_cons_self⟩
  · exact ⟨_, List.mem_of_getElem? (i := 3) rfl, List.mem_cons_self⟩

end TextGrammar
