import TextGrammar.Lint.Report
import TextGrammar.Proofs.Enclosed

/-! # What the walk of a rule finds

The references of a rule include those of every text inside it. So where the walk finds no flaw, no
tag in any of these texts is ambiguous, and where it finds no pushed symbol, none of them pushes.
-/

namespace TextGrammar

namespace Lint.References

/-- Everything that some references hold, others hold as well. -/
structure Includes (whole part : References) : Prop where
  symbols : part.symbols ⊆ whole.symbols
  modifiers : part.modifiers ⊆ whole.modifiers
  pushed : part.pushed ⊆ whole.pushed
  flaws : part.flaws ⊆ whole.flaws

variable {whole between part first second : References} {parts : List References}
  {ofText : String → References} {body inner rule text : String} {segment : Segment}

theorem Includes.refl (whole : References) : whole.Includes whole :=
  ⟨List.Subset.refl _, List.Subset.refl _, List.Subset.refl _, List.Subset.refl _⟩

theorem Includes.trans (outer : whole.Includes between) (inner : between.Includes part) :
    whole.Includes part where
  symbols := List.Subset.trans inner.symbols outer.symbols
  modifiers := List.Subset.trans inner.modifiers outer.modifiers
  pushed := List.Subset.trans inner.pushed outer.pushed
  flaws := List.Subset.trans inner.flaws outer.flaws

theorem append_includes_left (first second : References) : (append first second).Includes first :=
  ⟨List.subset_append_left .., List.subset_append_left .., List.subset_append_left ..,
    List.subset_append_left ..⟩

theorem append_includes_right (first second : References) : (append first second).Includes second :=
  ⟨List.subset_append_right .., List.subset_append_right .., List.subset_append_right ..,
    List.subset_append_right ..⟩

theorem concat_includes (member : part ∈ parts) : (concat parts).Includes part := by
  induction parts with
  | nil => contradiction
  | cons first rest ih =>
    rcases List.mem_cons.mp member with rfl | later
    · exact append_includes_left _ _
    · exact (append_includes_right _ _).trans (ih later)

/-- What an action expands is walked. -/
theorem ofAction_includes (member : inner ∈ (Action.parse body).texts) :
    (ofAction ofText body).Includes (ofText inner) := by
  simp only [ofAction]
  cases parsed : Action.parse body with rw [parsed] at member
  | push target rule =>
    exact (append_includes_right _ _).trans (concat_includes (List.mem_map_of_mem member))
  | pop target => contradiction
  | call rule =>
    rw [List.mem_singleton.mp member]
    exact .refl _

/-- What a segment runs is walked. -/
theorem ofSegment_includes (member : body ∈ segment.bodies) :
    (ofSegment ofText segment).Includes (ofAction ofText body) := by
  obtain ⟨kind, raw⟩ := segment
  cases kind with
  | plain => contradiction
  | action =>
    rw [List.mem_singleton.mp member]
    exact .refl _
  | tag =>
    simp only [Segment.bodies] at member
    simp only [ofSegment, ofTag]
    cases parsed : TagHead.parse raw with
    | error tag =>
      rw [parsed] at member
      contradiction
    | ok head =>
      rw [parsed] at member
      exact (append_includes_left _ _).trans (concat_includes (List.mem_map_of_mem member))

theorem within_includes (levels : Nat) (member : segment ∈ (Scanned.ofRule rule).segments) :
    (within (levels + 1) rule).Includes (ofSegment (within levels) segment) :=
  (append_includes_right _ _).trans (concat_includes (List.mem_map_of_mem member))

/-- The walk of a rule goes through every text inside it. -/
theorem ofRule_includes (inside : Encloses rule text) :
    ∃ levels, text.length ≤ levels ∧ (ofRule rule).Includes (within (levels + 1) text) := by
  induction inside with
  | self => exact ⟨rule.length, le_rfl, .refl _⟩
  | @run text body inner _ body_mem inner_mem ih =>
    obtain ⟨levels, enough, includes⟩ := ih
    obtain ⟨segment, member, runs⟩ := List.mem_flatMap.mp body_mem
    have shorter := (Action.length_text_le inner_mem).trans_lt (length_body_lt body_mem)
    have deeper := ((within_includes levels member).trans (ofSegment_includes runs)).trans
      (ofAction_includes inner_mem)
    obtain ⟨fewer, rfl⟩ : ∃ fewer, levels = fewer + 1 := ⟨levels - 1, by omega⟩
    exact ⟨fewer, by omega, includes.trans deeper⟩

/-- The walk of a rule goes through every segment of every text inside it. -/
theorem ofRule_includes_segment (inside : Encloses rule text)
    (member : segment ∈ (Scanned.ofRule text).segments) :
    ∃ levels, (ofRule rule).Includes (ofSegment (within levels) segment) := by
  obtain ⟨levels, _, includes⟩ := ofRule_includes inside
  exact ⟨levels, includes.trans (within_includes levels member)⟩

theorem concat_symbols {name : String} (member : name ∈ (concat parts).symbols) :
    ∃ part ∈ parts, name ∈ part.symbols := by
  induction parts with
  | nil => contradiction
  | cons first rest ih =>
    rcases List.mem_append.mp member with here | later
    · exact ⟨first, List.mem_cons_self, here⟩
    · obtain ⟨part, among, found⟩ := ih later
      exact ⟨part, List.mem_cons_of_mem _ among, found⟩

/-- An action refers to what it expands refers to. -/
theorem ofAction_symbols {name : String} (member : name ∈ (ofAction ofText body).symbols) :
    ∃ inner ∈ (Action.parse body).texts, name ∈ (ofText inner).symbols := by
  simp only [ofAction] at member
  cases parsed : Action.parse body with rw [parsed] at member
  | push target rule =>
    obtain ⟨_, among, found⟩ := concat_symbols member
    obtain ⟨inner, piece, rfl⟩ := List.mem_map.mp among
    exact ⟨inner, piece, found⟩
  | pop target => contradiction
  | call rule => exact ⟨rule, List.mem_singleton_self rule, member⟩

/-- A segment refers to the name of a tag, and to what the actions refer to that it runs. -/
theorem ofSegment_symbols {name : String} (member : name ∈ (ofSegment ofText segment).symbols) :
    (segment.kind = .tag ∧ name ≠ "" ∧
        ∃ head, TagHead.parse segment.raw = .ok head ∧ head.symbol = name) ∨
      ∃ body ∈ segment.bodies, name ∈ (ofAction ofText body).symbols := by
  obtain ⟨kind, raw⟩ := segment
  cases kind with
  | plain => contradiction
  | action => exact .inr ⟨raw, List.mem_singleton_self raw, member⟩
  | tag =>
    simp only [ofSegment, ofTag] at member
    cases parsed : TagHead.parse raw with rw [parsed] at member
    | error tag => contradiction
    | ok head =>
      rcases List.mem_append.mp member with called | named
      · obtain ⟨_, among, found⟩ := concat_symbols called
        obtain ⟨body, runs, rfl⟩ := List.mem_map.mp among
        refine .inr ⟨body, ?_, found⟩
        simpa only [Segment.bodies, parsed] using runs
      · dsimp only at named
        split at named
        · contradiction
        · next nonempty =>
          obtain rfl := List.mem_singleton.mp named
          exact .inl ⟨rfl, nonempty, head, rfl, rfl⟩

/-- The walk of a rule finds only what tags inside it name. -/
theorem names_of_within {name : String} {levels : Nat}
    (member : name ∈ (within levels rule).symbols) :
    name ≠ "" ∧ ∃ text, Encloses rule text ∧ Names text name := by
  induction levels generalizing rule with
  | zero => contradiction
  | succ levels ih =>
    obtain ⟨_, among, found⟩ := concat_symbols member
    obtain ⟨⟨kind, raw⟩, stands, rfl⟩ := List.mem_map.mp among
    rcases ofSegment_symbols found with ⟨tag, nonempty, head, parsed, named⟩ | ⟨body, runs, calls⟩
    · cases tag
      exact ⟨nonempty, rule, .self, raw, head, stands, parsed, named⟩
    · obtain ⟨inner, inner_mem, deeper⟩ := ofAction_symbols calls
      obtain ⟨nonempty, text, inside, names⟩ := ih deeper
      have body_mem : body ∈ bodies rule := List.mem_flatMap.mpr ⟨⟨kind, raw⟩, stands, runs⟩
      exact ⟨nonempty, text, (Encloses.run .self body_mem inner_mem).trans inside, names⟩

end Lint.References

/-- A rule inside of which every tag can be read, and which pushes nothing. -/
structure Tame (rule : String) : Prop where
  tags : ∀ text, Encloses rule text → ∀ raw, ⟨.tag, raw⟩ ∈ (Scanned.ofRule text).segments →
    ∃ head, TagHead.parse raw = .ok head
  pushless : ∀ text, Encloses rule text → ∀ body ∈ bodies text,
    ∀ target pushed, Action.parse body ≠ .push target pushed

/-- What is inside a tame rule is tame. -/
theorem Tame.inner {rule text : String} (tame : Tame rule) (inside : Encloses rule text) :
    Tame text where
  tags inner within := tame.tags inner (inside.trans within)
  pushless inner within := tame.pushless inner (inside.trans within)

open Lint References in
/-- A rule is tame if the walk finds no flaw in it and nothing pushed. -/
theorem tame_of_references {rule : String} (flawless : (ofRule rule).flaws = [])
    (pushless : (ofRule rule).pushed = []) : Tame rule where
  tags text inside raw member := by
    obtain ⟨levels, includes⟩ := ofRule_includes_segment inside member
    cases parsed : TagHead.parse raw with
    | ok head => exact ⟨head, rfl⟩
    | error tag =>
      have flawed : Flaw.ambiguous tag ∈ (ofSegment (within levels) ⟨.tag, raw⟩).flaws := by
        simp only [ofSegment, ofTag, parsed]
        exact List.mem_singleton_self _
      have listed := includes.flaws flawed
      rw [flawless] at listed
      contradiction
  pushless text inside body member target pushed pushes := by
    obtain ⟨segment, found, runs⟩ := List.mem_flatMap.mp member
    obtain ⟨levels, includes⟩ := ofRule_includes_segment inside found
    have walked : target ∈ (ofAction (within levels) body).pushed := by
      simp only [ofAction, pushes, append]
      exact List.mem_cons_self
    have listed := (includes.trans (ofSegment_includes runs)).pushed walked
    rw [pushless] at listed
    contradiction

/-- A rule that runs nothing has nothing else inside. -/
theorem eq_of_encloses {rule text : String} (idle : bodies rule = [])
    (inside : Encloses rule text) : text = rule := by
  induction inside with
  | self => rfl
  | run _ body_mem _ same =>
    rw [same, idle] at body_mem
    contradiction

/-- The placeholder for a symbol that some tag names runs nothing. -/
theorem bodies_placeholder {rule name : String} (names : Names rule name) :
    bodies (placeholder name) = [] := by
  rw [bodies, segments_placeholder names]
  rfl

/-- The placeholder for a symbol that some tag names is tame. -/
theorem tame_placeholder {rule name : String} (names : Names rule name) :
    Tame (placeholder name) := by
  have segments := segments_placeholder names
  have idle := bodies_placeholder names
  refine ⟨fun text inside raw member => ?_, fun text inside body member => ?_⟩
  · rw [eq_of_encloses idle inside, segments] at member
    cases List.mem_singleton.mp member
  · rw [eq_of_encloses idle inside, idle] at member
    contradiction

end TextGrammar
