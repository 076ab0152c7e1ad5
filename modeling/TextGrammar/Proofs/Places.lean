import TextGrammar.Proofs.Parallel

/-! # Where a node stands does not matter

The place of a node goes into the log of the symbol that it selects from, and into the places of its
children, but it is never read. So two nodes that differ in their places alone expand to the same
text with the same problems, draw the same rolls, and leave grammars that differ only in the places
in their logs.
-/

namespace TextGrammar

open Engine

/-- The symbol with the places in its log forgotten, but not how many there are. -/
def Symbol.unplaced (symbol : Symbol) : Symbol :=
  { symbol with log := symbol.log.map (Option.map fun _ => ⟨0, 0⟩) }

/-- The grammar with the places in its logs forgotten, in subgrammars too. -/
def Grammar.unplaced (grammar : Grammar) : Grammar :=
  grammar.through Symbol.unplaced

namespace Symbol

variable {one other : Symbol}

theorem unplaced_eq_iff : one.unplaced = other.unplaced ↔
    one.key = other.key ∧ one.base = other.base ∧ one.stack = other.stack ∧
      one.log.map (Option.map fun _ => (⟨0, 0⟩ : Place)) =
        other.log.map (Option.map fun _ => ⟨0, 0⟩) ∧ one.dynamic = other.dynamic := by
  simp only [unplaced, mk.injEq]

/-- The stack with its counters shows, and it is all that pushes, pops and selections change. -/
theorem unplaced_withStack (same : one.unplaced = other.unplaced) (stack : List RuleSet) :
    { one with stack }.unplaced = { other with stack }.unplaced := by
  obtain ⟨key, base, _, log, dynamic⟩ := unplaced_eq_iff.mp same
  exact unplaced_eq_iff.mpr ⟨key, base, rfl, log, dynamic⟩

/-- Two places are logged alike. -/
theorem unplaced_log (same : one.unplaced = other.unplaced) {origin twin : Option Place}
    (alike : origin.isSome = twin.isSome) :
    { one with log := origin :: one.log }.unplaced =
      { other with log := twin :: other.log }.unplaced := by
  obtain ⟨key, base, stack, log, dynamic⟩ := unplaced_eq_iff.mp same
  refine unplaced_eq_iff.mpr ⟨key, base, stack, ?_, dynamic⟩
  rw [List.map_cons, List.map_cons, log]
  congr 1
  cases origin <;> cases twin <;> first | rfl | contradiction

theorem faithful_unplaced : Faithful unplaced where
  key same := (unplaced_eq_iff.mp same).1
  sets same := by
    rw [Symbol.sets, Symbol.sets, bare, bare, (unplaced_eq_iff.mp same).2.2.1]
  push same set := by
    rw [push, push, (unplaced_eq_iff.mp same).2.2.1]
    exact unplaced_withStack same _
  drop same := by
    rw [(unplaced_eq_iff.mp same).2.2.1]
    exact unplaced_withStack same _
  log same origin := unplaced_log same rfl
  selectUnlogged same path rolls := by
    have stack := (unplaced_eq_iff.mp same).2.2.1
    simp only [selectUnlogged, stack]
    split
    · exact same
    · split
      · exact unplaced_withStack same _
      · exact same

end Symbol

theorem steady_unplaced : Steady Symbol.unplaced expandNode :=
  steady_expandNode Symbol.faithful_unplaced

/-- Two nodes that agree in all that their expansion reads. -/
structure Node.Twin (node twin : Node) : Prop where
  kind : node.kind = twin.kind
  raw : node.raw = twin.raw
  expanded : node.expanded = twin.expanded
  text : node.text = twin.text
  modifiers : node.modifiers = twin.modifiers

/-- What became of a node has the text and the modifiers of what became of another, and both gained
the same problems. -/
structure Node.Grown (node twin grown twinGrown : Node) : Prop where
  text : grown.text = twinGrown.text
  modifiers : grown.modifiers = twinGrown.modifiers
  errors : ∃ gained, grown.errors = node.errors ++ gained ∧ twinGrown.errors = twin.errors ++ gained

/-- Two outcomes of which this holds, both cut short by the same tag if at all. -/
structure Outcome.Grown (node twin : Node) (outcome other : Outcome) : Prop where
  fatal : outcome.fatal = other.fatal
  node : node.Grown twin outcome.node other.node

/-- What two lists of siblings come to, apart from the nodes themselves. -/
structure Engine.Siblings.Same (siblings others : Siblings) : Prop where
  errors : siblings.errors = others.errors
  text : siblings.text = others.text
  fatal : siblings.fatal = others.fatal

namespace Node.Grown

variable {node twin grown twinGrown : Node}

theorem start (text : node.text = twin.text) (modifiers : node.modifiers = twin.modifiers) :
    node.Grown twin node twin :=
  ⟨text, modifiers, [], (List.append_nil _).symm, (List.append_nil _).symm⟩

theorem addErrors (same : node.Grown twin grown twinGrown) (problems : List Problem) :
    node.Grown twin (grown.addErrors problems) (twinGrown.addErrors problems) := by
  obtain ⟨gained, errors, twinErrors⟩ := same.errors
  refine ⟨same.text, same.modifiers, gained ++ problems, ?_, ?_⟩
  · rw [Node.addErrors, errors, List.append_assoc]
  · rw [Node.addErrors, twinErrors, List.append_assoc]

theorem withText (same : node.Grown twin grown twinGrown) (text : String) :
    node.Grown twin { grown with text } { twinGrown with text } :=
  ⟨rfl, same.modifiers, same.errors⟩

theorem withHead (same : node.Grown twin grown twinGrown) (modifiers : List String)
    (preactions : List Action) :
    node.Grown twin { grown with modifiers, preactions }
      { twinGrown with modifiers, preactions } :=
  ⟨same.text, rfl, same.errors⟩

theorem withPostactions (same : node.Grown twin grown twinGrown) (postactions : List Action) :
    node.Grown twin { grown with postactions } { twinGrown with postactions } :=
  ⟨same.text, same.modifiers, same.errors⟩

end Node.Grown

/-- The same segment at two places. -/
theorem Node.twin_ofSegment (parent twinParent : Place) (index twinIndex : Nat)
    (segment : Segment) :
    (Node.ofSegment parent index segment).Twin (.ofSegment twinParent twinIndex segment) :=
  ⟨rfl, rfl, rfl, rfl, rfl⟩

/-- Nodes that nothing came of yet and that agree in all that their expansion reads. -/
def Node.FreshTwin (node twin : Node) : Prop :=
  node.Twin twin ∧ node.Fresh ∧ twin.Fresh

theorem freshTwins_mapIdx (segments : List Segment) {place twin : Nat → Segment → Node}
    (same : ∀ index segment, (place index segment).FreshTwin (twin index segment)) :
    List.Forall₂ Node.FreshTwin (segments.mapIdx place) (segments.mapIdx twin) := by
  induction segments generalizing place twin with
  | nil => exact .nil
  | cons segment rest ih =>
    rw [List.mapIdx_cons, List.mapIdx_cons]
    exact .cons (same 0 segment) (ih fun index => same (index + 1))

namespace Engine

/-- An expander treats nodes alike that agree in all that their expansion reads. -/
def Placeless (inner : Expander) : Prop :=
  ∀ node twin : Node, node.Twin twin →
    Parallel Symbol.unplaced (Outcome.Grown node twin) (inner node) (inner twin)

section

variable {inner : Expander} (placeless : Placeless inner)
include placeless

theorem parallel_expandEach {nodes twins : List Node}
    (same : List.Forall₂ Node.FreshTwin nodes twins) :
    Parallel Symbol.unplaced Siblings.Same (expandEach inner nodes) (expandEach inner twins) := by
  induction same with
  | nil => exact .pure ⟨rfl, rfl, rfl⟩
  | @cons node twin nodes twins same _ ih =>
    obtain ⟨twins, ⟨_, fresh⟩, ⟨_, twinFresh⟩⟩ := same
    refine (placeless node twin twins).bind fun outcome other grown => ?_
    obtain ⟨gained, errors, otherErrors⟩ := grown.node.errors
    rw [fresh, List.nil_append] at errors
    rw [twinFresh, List.nil_append] at otherErrors
    rw [grown.fatal]
    cases other.fatal with
    | some tag => exact .pure ⟨rfl, rfl, rfl⟩
    | none =>
      refine ih.bind fun others twinOthers rest => .pure ⟨?_, ?_, rest.fatal⟩
      · rw [errors, otherErrors, rest.errors]
      · rw [grown.node.text, rest.text]

variable {node twin grown twinGrown : Node} (same : node.Grown twin grown twinGrown)
include same

theorem parallel_expandChildren (rule : String) :
    Parallel Symbol.unplaced (Outcome.Grown node twin) (expandChildren inner grown rule)
      (expandChildren inner twinGrown rule) := by
  have children : List.Forall₂ Node.FreshTwin (grown.adopt rule (Scanned.ofRule rule)).children
      (twinGrown.adopt rule (Scanned.ofRule rule)).children :=
    freshTwins_mapIdx _ fun index segment => ⟨Node.twin_ofSegment _ _ _ _ segment,
      Node.fresh_ofSegment _ _ _, Node.fresh_ofSegment _ _ _⟩
  refine (Parallel.note _).andThen fun _ =>
    (parallel_expandEach placeless children).bind fun siblings others alike => ?_
  rw [alike.fatal, alike.errors, alike.text]
  have adopted := (same.addErrors (Scanned.ofRule rule).problems).addErrors others.errors
  cases others.fatal with
  | some tag => exact .pure ⟨rfl, adopted.text, adopted.modifiers, adopted.errors⟩
  | none => exact .pure ⟨rfl, rfl, adopted.modifiers, adopted.errors⟩

omit placeless in
theorem parallel_applyModifiers (modifiers : List String) :
    Parallel Symbol.unplaced (Node.Grown node twin) (applyModifiers grown modifiers)
      (applyModifiers twinGrown modifiers) := by
  induction modifiers generalizing grown twinGrown with
  | nil => exact .pure same
  | cons written rest ih =>
    have modified : Parallel Symbol.unplaced (Node.Grown node twin) (applyModifier grown written)
        (applyModifier twinGrown written) := by
      intro one other alike
      have found := Grammar.modifier?_of_through alike.grammar (ModifierCall.parse written).name
      simp only [applyModifier, Run.bind_apply, Run.get_apply, found]
      cases other.grammar.modifier? (ModifierCall.parse written).name with
      | some modifier =>
        rw [same.text]
        exact ⟨same.withText _, alike⟩
      | none =>
        rw [same.text]
        exact ⟨(same.addErrors _).withText _, alike.record _ _⟩
    exact modified.bind fun _ _ grown => ih grown

variable (steady : Steady Symbol.unplaced inner)
include steady

theorem parallel_resolveSymbol (symbol : String) :
    Parallel Symbol.unplaced (Outcome.Grown node twin) (resolveSymbol inner grown symbol)
      (resolveSymbol inner twinGrown symbol) := by
  have selects : Parallel Symbol.unplaced Eq (selectRule inner symbol (some grown.place))
      (selectRule inner symbol (some twinGrown.place)) := by
    refine parallel_selectRule Symbol.faithful_unplaced steady (fun same => ?_) symbol
    exact Symbol.unplaced_log same rfl
  refine selects.andThen fun selected => ?_
  have told := same.addErrors selected.problems
  cases selected.result with
  | error tag => exact .pure ⟨rfl, told⟩
  | ok rule =>
    have named : node.Grown twin { grown.addErrors selected.problems with symbol := some symbol }
        { twinGrown.addErrors selected.problems with symbol := some symbol } :=
      ⟨told.text, told.modifiers, told.errors⟩
    refine (parallel_expandChildren placeless named _).bind fun outcome other expanded => ?_
    rw [expanded.fatal, expanded.node.modifiers]
    cases other.fatal with
    | some tag => exact .pure ⟨rfl, expanded.node⟩
    | none =>
      exact (parallel_applyModifiers expanded.node _).bind fun _ _ modified =>
        .pure ⟨rfl, modified⟩

end

section

variable {inner : Expander} (placeless : Placeless inner)
  (steady : Steady Symbol.unplaced inner) {node twin : Node} (same : node.Twin twin)
include placeless steady same

theorem parallel_expandTag :
    Parallel Symbol.unplaced (Outcome.Grown node twin) (expandTag inner node)
      (expandTag inner twin) := by
  have begun := Node.Grown.start same.text same.modifiers
  simp only [expandTag, same.raw]
  cases TagHead.parse twin.raw with
  | error tag => exact .pure ⟨rfl, begun⟩
  | ok head =>
    have inherited := inherited_parallel Symbol.faithful_unplaced steady
    have closes (targets : List String) {outcome other : Outcome}
        (resolved : Outcome.Grown node twin outcome other) :
        Parallel Symbol.unplaced (Outcome.Grown node twin)
          (do
            let problems ← closeScopes targets
            pure { outcome with node := { outcome.node.addErrors problems with
              postactions := targets.map .pop } })
          (do
            let problems ← closeScopes targets
            pure { other with node := { other.node.addErrors problems with
              postactions := targets.map .pop } }) :=
      (inherited.closeScopes targets).andThen fun problems =>
        .pure ⟨resolved.fatal, (resolved.node.addErrors problems).withPostactions _⟩
    refine (Parallel.note _).andThen fun _ => (inherited.openScopes _).andThen fun scopes => ?_
    have opened := ((begun.addErrors head.problems).withHead head.modifiers
      (head.preactions.map Action.parse)).addErrors scopes.problems
    cases scopes.fatal with
    | some tag => exact closes scopes.targets ⟨rfl, opened⟩
    | none =>
      exact (parallel_resolveSymbol placeless opened steady head.symbol).bind
        fun _ _ resolved => closes scopes.targets resolved

omit placeless in
theorem parallel_expandAction :
    Parallel Symbol.unplaced (Outcome.Grown node twin) (expandAction inner node)
      (expandAction inner twin) := by
  have inherited := inherited_parallel Symbol.faithful_unplaced steady
  have begun := Node.Grown.start same.text same.modifiers
  simp only [expandAction, same.raw]
  refine (inherited.activate .bare _).andThen fun report => ?_
  have told := begun.addErrors report.problems
  cases report.result with
  | error tag => exact .pure ⟨rfl, told⟩
  | ok _ => exact .pure ⟨rfl, told.text, told.modifiers, told.errors⟩

theorem parallel_expandBody :
    Parallel Symbol.unplaced (Outcome.Grown node twin) (expandBody inner node)
      (expandBody inner twin) := by
  have begun := Node.Grown.start same.text same.modifiers
  simp only [expandBody, same.kind]
  split
  · rw [same.raw]
    exact parallel_expandChildren placeless begun twin.raw
  · exact parallel_expandTag placeless steady same
  · exact parallel_expandAction steady same
  · exact .pure ⟨rfl, begun⟩

end

theorem placeless_withRoom {inner : Expander} (placeless : Placeless inner)
    (steady : Steady Symbol.unplaced inner) : Placeless (withRoom (expandBody inner)) := by
  intro node twin same
  have begun := Node.Grown.start same.text same.modifiers
  have inside : node.begun.Twin twin.begun :=
    ⟨same.kind, same.raw, rfl, same.text, same.modifiers⟩
  refine .withRoom same.expanded same.kind ⟨rfl, begun⟩
    ⟨rfl, same.raw, begun.modifiers, begun.errors⟩
    (fun limit => ⟨rfl, ?_, begun.modifiers, ?_⟩) ?_
  · exact congrArg placeholder same.raw
  · refine ⟨[.recursionLimit limit node.raw], rfl, ?_⟩
    rw [same.raw]
    rfl
  · exact (parallel_expandBody placeless steady inside).mono fun outcome other grown =>
      ⟨grown.fatal, grown.node.text, grown.node.modifiers, grown.node.errors⟩

theorem placeless_expander {below : Expander} (placeless : Placeless below)
    (steady : Steady Symbol.unplaced below) (levels : Nat) : Placeless (expander below levels) := by
  induction levels with
  | zero => exact placeless_withRoom placeless steady
  | succ levels ih =>
    exact placeless_withRoom ih (steady_expander Symbol.faithful_unplaced steady levels)

theorem placeless_idle : Placeless idle :=
  fun _ _ same => .pure ⟨rfl, .start same.text same.modifiers⟩

end Engine

open Engine

theorem placeless_expandNode : Placeless expandNode := by
  intro node twin same one other alike
  have levels : other.limit - other.depth = one.limit - one.depth := by
    rw [alike.limit, alike.depth]
  have expands := placeless_expander placeless_idle steady_idle (one.limit - one.depth) node twin
    same alike
  simp only [expandNode, Run.bind_apply, Run.get_apply, levels]
  exact expands

end TextGrammar
