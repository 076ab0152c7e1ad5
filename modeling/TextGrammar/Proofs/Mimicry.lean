import TextGrammar.Proofs.Mirroring
import TextGrammar.Proofs.Parallel

/-! # Runs over mirrored stacks

A run over a grammar, and the same run over one that mirrors it, select the same rules and leave
grammars that mirror each other, with no fewer sets above the ground than before: a push adds one,
and the end of a tag takes off what its head pushed and no more. Only a pop action may reach into
the ground. So as long as none begins, the two runs come to the same texts, draw the same rolls and
meet the same problems, but for those of empty stacks.
-/

namespace TextGrammar

open Engine Expansion

/-- Whether an action that pops begins. -/
def Event.beginsPop : Event → Bool
  | .activated _ (.pop _) => true
  | _ => false

/-- No action that pops has begun. -/
def Expansion.Unpopped (state : Expansion) : Prop :=
  ∀ event ∈ state.events, event.beginsPop = false

/-- If none has begun at the end of a run, none had at its beginning. -/
def Run.Recalls {α : Type} (run : Run α) : Prop :=
  ∀ state : Expansion, (run state).2.Unpopped → state.Unpopped

namespace Run.Recalls

variable {α β : Type} {run : Run α} {next : α → Run β}

theorem pure (value : α) : Recalls (Pure.pure value) :=
  fun _ => id

theorem bind (begins : Recalls run) (goesOn : ∀ value, Recalls (next value)) :
    Recalls (run >>= next) :=
  fun state unpopped => begins state (goesOn (run state).1 (run state).2 unpopped)

/-- What a run adds to the journal takes nothing back. -/
theorem of_walks (walks : run.Walks) : Recalls run := by
  intro state unpopped event member
  obtain ⟨events, path⟩ := walks state
  refine unpopped event ?_
  rw [path.events_eq]
  exact List.mem_append_left _ member

theorem of_leads (leads : ∀ state, Leads [] state (run state).2) : Recalls run :=
  of_walks (.of_leads leads)

end Run.Recalls

/-- What the engine runs recalls every pop. -/
theorem Engine.inherited_recalls {inner : Expander} (plays : Plays inner) :
    Inherited fun run => Run.Recalls (run inner) :=
  have walks := inherited_walks plays
  { asked node fresh := .of_walks (walks.asked node fresh)
    pure := .pure
    bind := .bind
    note problems := .of_walks (walks.note problems)
    begin site action := .of_walks (walks.begin site action)
    push site key alternatives := .of_walks (walks.push site key alternatives)
    takeOff kind := .of_walks (walks.takeOff kind)
    applyModifier node written := .of_walks (walks.applyModifier node written)
    selectRule key origin := .of_walks (walks.selectRule key origin) }

/-- A state, and one whose grammar mirrors that of the first; nothing is said of their journals. -/
structure Expansion.Mirrors (above : String → Nat) (live shown : Expansion) : Prop where
  grammar : live.grammar.Mirrors above shown.grammar
  rolls : live.rolls = shown.rolls
  limit : live.limit = shown.limit
  depth : live.depth = shown.depth
  tripped : live.tripped = shown.tripped

/-- For a grammar on its own, a selection stands at what the top of the stack leads to. -/
theorem Expansion.setAt?_of_alone {state : Expansion} (alone : state.grammar.subgrammars = [])
    (key : String) (path : List String) : (state.setAt? key path).map RuleSet.clear =
      (state.grammar.setsOn key).head?.bind (·.descend? path) := by
  rw [clear_setAt?, Grammar.ruleSet?_map_clear alone]

namespace Expansion.Mirrors

variable {above : String → Nat} {live shown : Expansion} (mirrors : live.Mirrors above shown)
include mirrors

theorem record (events twinEvents : List Event) :
    (live.record events).Mirrors above (shown.record twinEvents) :=
  ⟨mirrors.grammar, mirrors.rolls, mirrors.limit, mirrors.depth, mirrors.tripped⟩

theorem withGrammar {after : String → Nat} {grammar twin : Grammar}
    (same : grammar.Mirrors after twin) :
    { live with grammar }.Mirrors after { shown with grammar := twin } :=
  ⟨same, mirrors.rolls, mirrors.limit, mirrors.depth, mirrors.tripped⟩

theorem leave : (Run.leave live).2.Mirrors above (Run.leave shown).2 :=
  ⟨mirrors.grammar, mirrors.rolls, mirrors.limit, congrArg (· - 1) mirrors.depth, mirrors.tripped⟩

theorem condition? (key : String) (path : List String) :
    live.condition? key path = shown.condition? key path := by
  rw [condition?_eq_clear, condition?_eq_clear, setAt?_of_alone mirrors.grammar.alone,
    setAt?_of_alone mirrors.grammar.twinAlone]
  rcases (mirrors.grammar.levels key).tops with same | ⟨pool, _, empty, single⟩
  · rw [same]
  · rw [empty, single]
    cases path <;> rfl

theorem leads (key : String) (path : List String) (value : String) :
    live.leads key path value = shown.leads key path value := by
  rw [leads_eq_clear, leads_eq_clear, setAt?_of_alone mirrors.grammar.alone,
    setAt?_of_alone mirrors.grammar.twinAlone]
  rcases (mirrors.grammar.levels key).tops with same | ⟨pool, _, empty, single⟩
  · rw [same]
  · rw [empty, single]
    cases path <;> rfl

end Expansion.Mirrors

/-- From states of which one mirrors the other, a run comes to an end at which something holds of
the two values and of the sets above the ground, unless an action that pops begins. -/
def Tracks {α β : Type} (above : String → Nat) (ends : α → β → (String → Nat) → Prop) (run : Run α)
    (twin : Run β) : Prop :=
  ∀ ⦃live shown : Expansion⦄, live.Mirrors above shown → (run live).2.Unpopped →
    ∃ after, ends (run live).1 (twin shown).1 after ∧ (run live).2.Mirrors after (twin shown).2

/-- Wherever it begins, a run ends with values that match and with no fewer sets above the
ground. -/
def Mimics {α β : Type} (matching : α → β → Prop) (run : Run α) (twin : Run β) : Prop :=
  ∀ above, Tracks above (fun value other after => matching value other ∧ above ≤ after) run twin

section

variable {α β γ δ : Type} {above : String → Nat} {ends : α → β → (String → Nat) → Prop}
  {results : γ → δ → (String → Nat) → Prop} {matching : α → β → Prop} {outcomes : γ → δ → Prop}
  {run : Run α} {twin : Run β} {next : α → Run γ} {more : β → Run δ}

namespace Tracks

theorem pure {value : α} {other : β} (holds : ends value other above) :
    Tracks above ends (Pure.pure value) (Pure.pure other) :=
  fun _ _ mirrors _ => ⟨above, holds, mirrors⟩

theorem bind (begins : Tracks above ends run twin) (recalls : ∀ value, (next value).Recalls)
    (goesOn : ∀ value other after, ends value other after →
      Tracks after results (next value) (more other)) :
    Tracks above results (run >>= next) (twin >>= more) := by
  intro live shown mirrors unpopped
  -- Whatever comes later takes no pop back, so none has begun so far.
  have early := recalls (run live).1 (run live).2 unpopped
  obtain ⟨after, holds, mirrors⟩ := begins mirrors early
  exact goesOn _ _ after holds mirrors unpopped

theorem mono {weaker : α → β → (String → Nat) → Prop} (begins : Tracks above ends run twin)
    (weakens : ∀ value other after, ends value other after → weaker value other after) :
    Tracks above weaker run twin := by
  intro live shown mirrors unpopped
  obtain ⟨after, holds, mirrors⟩ := begins mirrors unpopped
  exact ⟨after, weakens _ _ _ holds, mirrors⟩

/-- What is told does not matter. -/
theorem note {after : Unit → Run γ} {later : Unit → Run δ} (problems : List Problem)
    (goesOn : Tracks above results (after ()) (later ())) :
    Tracks above results (Run.note problems >>= after) (Run.note problems >>= later) :=
  fun _ _ mirrors unpopped => goesOn (mirrors.record _ _) unpopped

theorem begin {after : Unit → Run γ} {later : Unit → Run δ} (site : Site) (action : Action)
    (goesOn : Tracks above results (after ()) (later ())) :
    Tracks above results (Run.begin site action >>= after) (Run.begin site action >>= later) :=
  fun _ _ mirrors unpopped => goesOn (mirrors.record _ _) unpopped

end Tracks

namespace Mimics

theorem pure {value : α} {other : β} (fits : matching value other) :
    Mimics matching (Pure.pure value) (Pure.pure other) :=
  fun _ => .pure ⟨fits, le_rfl⟩

theorem bind (begins : Mimics matching run twin) (recalls : ∀ value, (next value).Recalls)
    (goesOn : ∀ value other, matching value other →
      Mimics outcomes (next value) (more other)) :
    Mimics outcomes (run >>= next) (twin >>= more) := by
  intro above
  refine (begins above).bind recalls fun value other after begun => ?_
  obtain ⟨fits, grown⟩ := begun
  exact (goesOn value other fits after).mono fun _ _ _ ends => ⟨ends.1, grown.trans ends.2⟩

/-- What comes after a run without a further step. -/
theorem map (begins : Mimics matching run twin) {change : α → γ} {twinChange : β → δ}
    (fits : ∀ value other, matching value other → outcomes (change value) (twinChange other)) :
    Mimics outcomes (run >>= fun value => Pure.pure (change value))
      (twin >>= fun other => Pure.pure (twinChange other)) :=
  begins.bind (fun _ => .pure _) fun value other same => .pure (fits value other same)

end Mimics

end

/-! ## What two runs come to -/

/-- Two answers that were cut short by the same tag, or values that match. -/
inductive Agree {α β : Type} (matching : α → β → Prop) :
    Except AmbiguousTag α → Except AmbiguousTag β → Prop
  | cut (tag : AmbiguousTag) : Agree matching (.error tag) (.error tag)
  | whole {value : α} {other : β} (fits : matching value other) :
      Agree matching (.ok value) (.ok other)

theorem Agree.map {α β γ δ : Type} {matching : α → β → Prop} {outcomes : γ → δ → Prop}
    {answer : Except AmbiguousTag α} {other : Except AmbiguousTag β}
    (agree : Agree matching answer other) {change : α → γ} {twinChange : β → δ}
    (fits : ∀ value other, matching value other → outcomes (change value) (twinChange other)) :
    Agree outcomes (answer.map change) (other.map twinChange) := by
  cases agree with
  | cut tag => exact .cut tag
  | whole same => exact .whole (fits _ _ same)

theorem Agree.mono {α β : Type} {matching weaker : α → β → Prop}
    {answer : Except AmbiguousTag α} {other : Except AmbiguousTag β}
    (agree : Agree matching answer other)
    (weakens : ∀ value other, matching value other → weaker value other) :
    Agree weaker answer other := by
  cases agree with
  | cut tag => exact .cut tag
  | whole same => exact .whole (weakens _ _ same)

/-- A node, and one of the same text whose problems stand in place of those of the first. -/
structure Node.Softens (node twin : Node) : Prop where
  place : node.place = twin.place
  text : node.text = twin.text
  modifiers : node.modifiers = twin.modifiers
  errors : Soften node.errors twin.errors

/-- Two outcomes with such nodes, both cut short by the same tag if at all. -/
structure Outcome.Softens (outcome other : Outcome) : Prop where
  fatal : outcome.fatal = other.fatal
  node : outcome.node.Softens other.node

/-- Two reports whose answers agree. -/
structure Report.Softens {α β : Type} (matching : α → β → Prop) (report : Report α)
    (other : Report β) : Prop where
  result : Agree matching report.result other.result
  problems : Soften report.problems other.problems

/-- What two lists of siblings come to, apart from the nodes themselves. -/
structure Engine.Siblings.Softens (siblings others : Siblings) : Prop where
  errors : Soften siblings.errors others.errors
  text : siblings.text = others.text
  fatal : siblings.fatal = others.fatal

/-- What two tag heads come to, the same names pushed onto. -/
structure Engine.Scopes.Softens (scopes others : Scopes) : Prop where
  targets : scopes.targets = others.targets
  problems : Soften scopes.problems others.problems
  fatal : scopes.fatal = others.fatal

namespace Node.Softens

variable {node twin : Node}

theorem refl (node : Node) : node.Softens node :=
  ⟨rfl, rfl, rfl, .refl _⟩

theorem addErrors (softens : node.Softens twin) {problems others : List Problem}
    (soften : Soften problems others) :
    (node.addErrors problems).Softens (twin.addErrors others) :=
  ⟨softens.place, softens.text, softens.modifiers, softens.errors.append soften⟩

theorem withText (softens : node.Softens twin) (text : String) :
    { node with text }.Softens { twin with text } :=
  ⟨softens.place, rfl, softens.modifiers, softens.errors⟩

end Node.Softens

theorem Node.Softens.outcome {node twin : Node} (softens : node.Softens twin)
    (fatal : Option AmbiguousTag) : Outcome.Softens ⟨node, fatal⟩ ⟨twin, fatal⟩ :=
  ⟨rfl, softens⟩

theorem Outcome.Softens.result {outcome other : Outcome} (softens : outcome.Softens other) :
    Agree Node.Softens outcome.result other.result := by
  rw [Outcome.result, Outcome.result, softens.fatal]
  cases other.fatal with
  | some tag => exact .cut tag
  | none => exact .whole softens.node

/-- There are as many more sets above the ground as names were pushed onto, or more. -/
def Gained (targets : List String) (above after : String → Nat) : Prop :=
  ∀ key, above key + targets.count key ≤ after key

namespace Gained

variable {first second : List String} {above middle after : String → Nat}

theorem of_le (grown : above ≤ after) : Gained [] above after :=
  grown

theorem le (gained : Gained first above after) : above ≤ after :=
  fun key => (Nat.le_add_right _ _).trans (gained key)

theorem append (early : Gained first above middle) (late : Gained second middle after) :
    Gained (first ++ second) above after := by
  intro key
  have early := early key
  have late := late key
  rw [List.count_append]
  omega

theorem grow (gained : Gained first above middle) (grown : middle ≤ after) :
    Gained first above after :=
  fun key => (gained key).trans (grown key)

theorem push (key : String) (above : String → Nat) :
    Gained [key] above (Function.update above key (above key + 1)) := by
  intro other
  by_cases same : other = key
  · rw [same, Function.update_self, List.count_singleton_self]
  · have absent : other ∉ [key] := fun member => same (List.mem_singleton.mp member)
    rw [Function.update_of_ne same, List.count_eq_zero.mpr absent]
    exact le_rfl

/-- The set of the first name is there to be taken off, and those of the rest are left. -/
theorem uncons {key : String} (gained : Gained (key :: first) above after) :
    0 < after key ∧ Gained first above (Function.update after key (after key - 1)) := by
  have here := gained key
  rw [List.count_cons_self] at here
  refine ⟨by omega, fun other => ?_⟩
  have there := gained other
  rw [Function.update_apply]
  split
  · next same =>
    subst same
    omega
  · next different =>
    rwa [List.count_cons_of_ne (Ne.symm different)] at there

end Gained

/-! ## Single steps -/

namespace Run

theorem push_tracks (site : Site) (key : String) (alternatives : List String)
    (above : String → Nat) : Tracks above (fun _ _ after => Gained [key] above after)
      (push site key alternatives) (push site key alternatives) :=
  fun _ _ mirrors _ => ⟨_, .push key above,
    (mirrors.withGrammar (mirrors.grammar.push key alternatives)).record _ _⟩

/-- The end of a tag takes off what stands above the ground. -/
theorem release_tracks (key : String) {above : String → Nat} (held : 0 < above key) :
    Tracks above (fun problems others after => problems = others ∧
      after = Function.update above key (above key - 1)) (release key) (release key) := by
  intro live shown mirrors _
  obtain ⟨set, twin, next, twinNext, pops, popsToo, left⟩ := mirrors.grammar.pop key held
  simp only [release, takeOff, pops, popsToo]
  exact ⟨_, ⟨trivial, rfl⟩, (mirrors.withGrammar left).record _ _⟩

theorem select_mimics (key : String) (origin : Option Place) (path : List String) :
    Mimics (fun answer other : Option String × List Problem =>
      answer.1.getD (placeholder key) = other.1.getD (placeholder key) ∧ Soften answer.2 other.2)
      (select key origin path) (select key origin path) := by
  intro above live shown mirrors _
  obtain ⟨rules, problems, rolls, left⟩ := mirrors.grammar.select key origin path live.rolls
  simp only [select, ← mirrors.rolls]
  exact ⟨above, ⟨⟨rules, problems⟩, le_rfl⟩,
    ⟨left, rolls, mirrors.limit, mirrors.depth, mirrors.tripped⟩⟩

theorem leave_recalls : leave.Recalls :=
  .of_walks fun state => ⟨_, .single (leave_step state)⟩

end Run

end TextGrammar
