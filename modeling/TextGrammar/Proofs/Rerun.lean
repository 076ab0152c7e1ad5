import TextGrammar.Proofs.Mimicry

/-! # The engine over mirrored stacks

One lemma for each function of the engine, over any expander that treats mirrored stacks alike for
the levels below; the levels are then tied together by induction. What a tag head pushes stands
above the ground until the end of the tag takes it off again. A pop action ends the comparison: no
run in which one begins has anything to show.
-/

namespace TextGrammar

open Engine Expansion

namespace Engine

/-- An expander does the same to a node over mirrored stacks. -/
def Mimicking (inner : Expander) : Prop :=
  ∀ node : Node, node.Fresh → Mimics Outcome.Softens (inner node) (inner node)

/-- What an action comes to: the name pushed onto is the same, and holds one set more. -/
abbrev Activates (above : String → Nat) (report other : Report (Option String))
    (after : String → Nat) : Prop :=
  report.Softens Eq other ∧ Gained (pushedBy report) above after

section

variable {inner : Expander} (plays : Plays inner) (mimicking : Mimicking inner)
include plays mimicking

theorem mimics_expandEach {nodes : List Node} (fresh : ∀ node ∈ nodes, node.Fresh) :
    Mimics Siblings.Softens (expandEach inner nodes) (expandEach inner nodes) := by
  have recalls := Engine.inherited_recalls plays
  induction nodes with
  | nil => exact .pure ⟨.nil, rfl, rfl⟩
  | cons child rest ih =>
    obtain ⟨childFresh, restFresh⟩ := List.forall_mem_cons.mp fresh
    refine (mimicking child childFresh).bind (fun outcome => ?_) fun outcome other same => ?_
    · cases outcome.fatal with
      | some tag => exact .pure _
      | none => exact (recalls.expandEach restFresh).bind fun _ => .pure _
    · rw [same.fatal]
      cases other.fatal with
      | some tag => exact .pure ⟨.nil, rfl, rfl⟩
      | none =>
        refine (ih restFresh).map fun others more rest => ⟨?_, ?_, rest.fatal⟩
        · exact same.node.errors.append rest.errors
        · rw [same.node.text, rest.text]

theorem mimics_expandChildren {node twin : Node} (softens : node.Softens twin) (rule : String) :
    Mimics Outcome.Softens (expandChildren inner node rule) (expandChildren inner twin rule) := by
  have fresh := fresh_adopt node rule (Scanned.ofRule rule)
  have children : (twin.adopt rule (Scanned.ofRule rule)).children =
      (node.adopt rule (Scanned.ofRule rule)).children := by
    rw [Node.adopt, Node.adopt, softens.place]
  simp only [expandChildren, children]
  intro above
  refine .note _ (((mimics_expandEach plays mimicking fresh).bind (fun siblings => ?_)
    fun siblings others same => ?_) above)
  · cases siblings.fatal <;> exact .pure _
  · have grown := (softens.addErrors (.refl (Scanned.ofRule rule).problems)).addErrors same.errors
    rw [same.fatal, same.text]
    cases others.fatal with
    | some tag => exact .pure ⟨rfl, grown.place, grown.text, grown.modifiers, grown.errors⟩
    | none => exact .pure ⟨rfl, grown.place, rfl, grown.modifiers, grown.errors⟩

omit plays in
theorem mimics_expandNested (rule : String) :
    Mimics (Agree Node.Softens) (expandNested inner rule) (expandNested inner rule) :=
  (mimicking _ (Node.fresh_root rule)).map fun _ _ same => same.result

theorem mimics_expandParts (parts : List String) :
    Mimics (Report.Softens Eq) (expandParts inner parts) (expandParts inner parts) := by
  have recalls := Engine.inherited_recalls plays
  induction parts with
  | nil => exact .pure ⟨.whole rfl, .nil⟩
  | cons part rest ih =>
    refine (mimics_expandNested mimicking part).bind (fun result => ?_) fun result other same => ?_
    · cases result with
      | error tag => exact .pure _
      | ok node => exact (recalls.expandParts rest).bind fun _ => .pure _
    · cases same with
      | cut tag => exact .pure ⟨.cut tag, .nil⟩
      | @whole node twin same =>
        refine ih.map fun report other rest => ⟨?_, same.errors.append rest.problems⟩
        rw [same.text]
        exact rest.result.map fun _ _ texts => congrArg _ texts

/-- A push adds one set above the ground. -/
theorem tracks_activate_push (site : Site) (target rule : String) (above : String → Nat) :
    Tracks above (Activates above) (activate inner site (.push target rule))
      (activate inner site (.push target rule)) := by
  refine .begin site _ ((mimics_expandParts plays mimicking _ above).bind (fun parts => ?_)
    fun parts others after same => ?_)
  · cases parts.result with
    | error tag => exact .pure _
    | ok alternatives =>
      exact ((Engine.inherited_recalls plays).push site target alternatives).bind fun _ => .pure _
  · obtain ⟨⟨agree, problems⟩, grown⟩ := same
    generalize parts.result = result at agree ⊢
    generalize others.result = twinResult at agree ⊢
    cases agree with
    | cut tag => exact .pure ⟨⟨.cut tag, problems⟩, .of_le grown⟩
    | @whole alternatives _ equal =>
      obtain rfl := equal
      refine (Run.push_tracks site target alternatives after).bind (fun _ => .pure _)
        fun _ _ later gained => .pure ⟨⟨.whole rfl, problems⟩, ?_⟩
      exact (Gained.of_le grown).append gained

omit plays in
theorem tracks_activate_call (site : Site) (rule : String) (above : String → Nat) :
    Tracks above (Activates above) (activate inner site (.call rule))
      (activate inner site (.call rule)) := by
  refine .begin site _ ((mimics_expandNested mimicking rule above).bind (fun result => ?_)
    fun _ _ after same => ?_)
  · cases result <;> exact .pure _
  · obtain ⟨agree, grown⟩ := same
    cases agree with
    | cut tag => exact .pure ⟨⟨.cut tag, .nil⟩, .of_le grown⟩
    | whole same => exact .pure ⟨⟨.whole rfl, same.errors⟩, .of_le grown⟩

omit mimicking in
/-- Once a pop action begins there is nothing left to compare. -/
theorem tracks_activate_pop (site : Site) (target : String) (above : String → Nat) :
    Tracks above (Activates above) (activate inner site (.pop target))
      (activate inner site (.pop target)) := by
  intro live shown _ unpopped
  have begun := (Engine.inherited_recalls plays).takeOff (.inl rfl)
    (Run.begin site (.pop target) live).2 unpopped
  exact Bool.noConfusion
    (begun (.activated site (.pop target)) (List.mem_reverse.mpr List.mem_cons_self))

theorem tracks_activate (site : Site) (action : Action) (above : String → Nat) :
    Tracks above (Activates above) (activate inner site action) (activate inner site action) := by
  cases action with
  | push target rule => exact tracks_activate_push plays mimicking site target rule above
  | pop target => exact tracks_activate_pop plays site target above
  | call rule => exact tracks_activate_call mimicking site rule above

omit mimicking in
theorem follow_recalls (key : String) (steps : Nat) (path : List String)
    (result : Except AmbiguousTag Node) : (follow inner key steps path result).Recalls := by
  cases result with
  | error tag => exact .pure _
  | ok node =>
    intro state unpopped
    by_cases leads : state.leads key path node.text = true
    · rw [follow_of_leads inner steps leads] at unpopped
      exact Run.Recalls.of_leads (leads_conditionPath plays key steps _) state unpopped
    · rwa [follow_of_astray inner steps leads] at unpopped

/-- Conditions are read off the sets on top, which are the same. -/
theorem mimics_conditionPath (key : String) (steps : Nat) (path : List String) :
    Mimics (Report.Softens Eq) (conditionPath inner key steps path)
      (conditionPath inner key steps path) := by
  induction steps generalizing path with
  | zero => exact .pure ⟨.whole rfl, .nil⟩
  | succ steps ih =>
    intro above live shown mirrors unpopped
    have same := mirrors.condition? key path
    cases found : live.condition? key path with
    | none =>
      rw [conditionPath_of_none inner steps found,
        conditionPath_of_none inner steps (same ▸ found)]
      exact ⟨above, ⟨⟨.whole rfl, .nil⟩, le_rfl⟩, mirrors⟩
    | some condition =>
      rw [conditionPath_of_some inner steps found] at unpopped ⊢
      rw [conditionPath_of_some inner steps (same ▸ found)]
      refine (mimics_expandNested mimicking condition).bind (follow_recalls plays key steps path)
        (fun result other agree => ?_) above mirrors unpopped
      cases agree with
      | cut tag => exact .pure ⟨.cut tag, .nil⟩
      | @whole node twin softens =>
        intro above live shown mirrors unpopped
        have leadsToo : shown.leads key path twin.text = live.leads key path node.text := by
          rw [← softens.text, mirrors.leads]
        by_cases leads : live.leads key path node.text = true
        · rw [follow_of_leads inner steps leads] at unpopped ⊢
          rw [follow_of_leads inner steps (leadsToo.trans leads), ← softens.text]
          exact (ih (path ++ [node.text])).map (fun _ _ same =>
            ⟨same.result, softens.errors.append same.problems⟩) above mirrors unpopped
        · rw [follow_of_astray inner steps leads, follow_of_astray inner steps (leadsToo ▸ leads)]
          exact ⟨above, ⟨⟨.whole rfl, softens.errors⟩, le_rfl⟩, mirrors⟩

/-- The same rule is selected, or its absence is told in the same words. -/
abbrev Chooses (key : String) : Report (Option String) → Report (Option String) → Prop :=
  Report.Softens fun rule other => rule.getD (placeholder key) = other.getD (placeholder key)

theorem mimics_selectRule (key : String) (origin : Option Place) :
    Mimics (Chooses key) (selectRule inner key origin) (selectRule inner key origin) := by
  have finish (path : Report (List String)) : (choose key origin path).Recalls := by
    rw [choose]
    cases path.result with
    | error tag => exact .pure _
    | ok branches =>
      exact (Run.Recalls.of_leads (Run.leads_select key origin branches)).bind fun _ => .pure _
  intro above live shown mirrors unpopped
  rw [selectRule_apply] at unpopped ⊢
  rw [selectRule_apply, ← mirrors.limit]
  refine (mimics_conditionPath plays mimicking key live.limit []).bind finish
    (fun path other same => ?_) above mirrors unpopped
  obtain ⟨agree, problems⟩ := same
  obtain ⟨result, told⟩ := path
  obtain ⟨twinResult, twinTold⟩ := other
  cases agree with
  | cut tag => exact .pure ⟨.cut tag, problems⟩
  | @whole branches _ equal =>
    obtain rfl := equal
    exact (Run.select_mimics key origin branches).map fun _ _ same =>
      ⟨.whole same.1, problems.append same.2⟩

omit plays mimicking in
theorem mimics_applyModifier {node twin : Node} (softens : node.Softens twin) (written : String) :
    Mimics Node.Softens (applyModifier node written) (applyModifier twin written) := by
  intro above live shown mirrors _
  have same : shown.grammar.modifier? (ModifierCall.parse written).name =
      live.grammar.modifier? (ModifierCall.parse written).name :=
    congrArg (List.lookup _) mirrors.grammar.modifiers.symm
  simp only [applyModifier, Run.bind_apply, Run.get_apply, same, ← softens.text]
  cases live.grammar.modifier? (ModifierCall.parse written).name with
  | some modifier => exact ⟨above, ⟨softens.withText _, le_rfl⟩, mirrors⟩
  | none =>
    exact ⟨above, ⟨(softens.addErrors (.refl _)).withText _, le_rfl⟩, mirrors.record _ _⟩

omit mimicking in
theorem mimics_applyModifiers {node twin : Node} (softens : node.Softens twin)
    (modifiers : List String) :
    Mimics Node.Softens (applyModifiers node modifiers) (applyModifiers twin modifiers) := by
  have recalls := Engine.inherited_recalls plays
  induction modifiers generalizing node twin with
  | nil => exact .pure softens
  | cons written rest ih =>
    exact (mimics_applyModifier softens written).bind (fun node => recalls.applyModifiers node rest)
      fun _ _ modified => ih modified

theorem mimics_resolveSymbol {node twin : Node} (softens : node.Softens twin) (symbol : String) :
    Mimics Outcome.Softens (resolveSymbol inner node symbol)
      (resolveSymbol inner twin symbol) := by
  have recalls := Engine.inherited_recalls plays
  rw [resolveSymbol, resolveSymbol, ← softens.place]
  refine (mimics_selectRule plays mimicking symbol (some node.place)).bind (fun selected => ?_)
    fun selected other same => ?_
  · cases selected.result with
    | error tag => exact .pure _
    | ok rule =>
      refine (recalls.expandChildren _ _).bind fun outcome => ?_
      cases outcome.fatal with
      | some tag => exact .pure _
      | none => exact (recalls.applyModifiers _ _).bind fun _ => .pure _
  · have told := softens.addErrors same.problems
    obtain ⟨agree, _⟩ := same
    generalize selected.result = result at agree ⊢
    generalize other.result = twinResult at agree ⊢
    cases agree with
    | cut tag => exact .pure ⟨rfl, told⟩
    | whole rules =>
      have named : { node.addErrors selected.problems with symbol := some symbol }.Softens
          { twin.addErrors other.problems with symbol := some symbol } :=
        ⟨told.place, told.text, told.modifiers, told.errors⟩
      simp only [rules]
      refine (mimics_expandChildren plays mimicking named _).bind (fun outcome => ?_)
        fun outcome twinOutcome grown => ?_
      · cases outcome.fatal with
        | some tag => exact .pure _
        | none => exact (recalls.applyModifiers _ _).bind fun _ => .pure _
      · rw [grown.fatal, grown.node.modifiers]
        cases twinOutcome.fatal with
        | some tag => exact .pure ⟨rfl, grown.node⟩
        | none => exact (mimics_applyModifiers plays grown.node _).map fun _ _ same => ⟨rfl, same⟩

/-- Every push of a tag head that is not cut short adds a set above the ground. -/
theorem tracks_openScopes (actions : List Action) (above : String → Nat) :
    Tracks above (fun scopes others after => scopes.Softens others ∧
      Gained scopes.targets above after) (openScopes inner actions) (openScopes inner actions) := by
  have recalls := Engine.inherited_recalls plays
  induction actions generalizing above with
  | nil => exact .pure ⟨⟨rfl, .nil, rfl⟩, .of_le le_rfl⟩
  | cons action rest ih =>
    refine (tracks_activate plays mimicking .tagHead action above).bind (fun report => ?_)
      fun report other middle same => ?_
    · cases report.result with
      | error tag => exact .pure _
      | ok target => exact (recalls.openScopes rest).bind fun _ => .pure _
    · obtain ⟨⟨agree, problems⟩, gained⟩ := same
      rw [pushedBy] at gained
      generalize report.result = result at agree gained ⊢
      generalize other.result = twinResult at agree ⊢
      cases agree with
      | cut tag => exact .pure ⟨⟨rfl, problems, rfl⟩, .of_le gained.le⟩
      | @whole target _ equal =>
        obtain rfl := equal
        refine (ih middle).bind (fun _ => .pure _) fun scopes others after later => ?_
        obtain ⟨rest, more⟩ := later
        refine .pure ⟨⟨?_, problems.append rest.problems, rest.fatal⟩, gained.append more⟩
        rw [rest.targets]

omit mimicking in
/-- What the head of a tag pushed is what the end of the tag takes off. -/
theorem tracks_closeScopes (targets : List String) {base above : String → Nat}
    (gained : Gained targets base above) :
    Tracks above (fun problems others after => problems = others ∧ base ≤ after)
      (closeScopes targets) (closeScopes targets) := by
  have recalls := Engine.inherited_recalls plays
  induction targets generalizing above with
  | nil => exact .pure ⟨rfl, gained.le⟩
  | cons target rest ih =>
    obtain ⟨held, left⟩ := gained.uncons
    refine (Run.release_tracks target held).bind
      (fun _ => (recalls.closeScopes rest).bind fun _ => .pure _) fun _ _ after released => ?_
    obtain ⟨rfl, rfl⟩ := released
    refine (ih left).bind (fun _ => .pure _) fun _ _ _ closed => ?_
    exact .pure ⟨congrArg _ closed.1, closed.2⟩

omit mimicking in
/-- The end of a tag, whatever its symbol came to. -/
theorem tracks_endTag (targets : List String) {outcome other : Outcome}
    (softens : outcome.Softens other) {base above : String → Nat}
    (gained : Gained targets base above) :
    Tracks above (fun outcome other after => outcome.Softens other ∧ base ≤ after)
      (do
        let problems ← closeScopes targets
        pure { outcome with node := { outcome.node.addErrors problems with
          postactions := targets.map .pop } })
      (do
        let problems ← closeScopes targets
        pure { other with node := { other.node.addErrors problems with
          postactions := targets.map .pop } }) := by
  refine (tracks_closeScopes plays targets gained).bind (fun _ => .pure _)
    fun problems _ _ closed => ?_
  obtain ⟨rfl, kept⟩ := closed
  have told := softens.node.addErrors (.refl problems)
  exact .pure ⟨⟨softens.fatal, told.place, told.text, told.modifiers, told.errors⟩, kept⟩

/-- What the head of a tag pushes stands above the ground until the end of the tag. -/
theorem mimics_expandTag (node : Node) :
    Mimics Outcome.Softens (expandTag inner node) (expandTag inner node) := by
  have recalls := Engine.inherited_recalls plays
  simp only [expandTag]
  cases TagHead.parse node.raw with
  | error tag => exact .pure ⟨rfl, .refl node⟩
  | ok head =>
    have ends (targets : List String) (outcome : Outcome) :
        Run.Recalls (do
          let problems ← closeScopes targets
          pure { outcome with node := { outcome.node.addErrors problems with
            postactions := targets.map .pop } }) :=
      (recalls.closeScopes targets).bind fun _ => .pure _
    refine fun above => .note _ ((tracks_openScopes plays mimicking _ above).bind (fun scopes => ?_)
      fun scopes others opened ran => ?_)
    · cases scopes.fatal with
      | some tag => exact ends scopes.targets _
      | none => exact (recalls.resolveSymbol _ _).bind fun outcome => ends scopes.targets outcome
    · obtain ⟨same, gained⟩ := ran
      have begun : { node.addErrors head.problems with
          modifiers := head.modifiers, preactions := head.preactions.map Action.parse }.Softens
          { node.addErrors head.problems with
            modifiers := head.modifiers, preactions := head.preactions.map Action.parse } :=
        .refl _
      have told := begun.addErrors same.problems
      rw [← same.fatal, ← same.targets]
      cases scopes.fatal with
      | some tag => exact tracks_endTag plays scopes.targets (told.outcome _) gained
      | none =>
        refine (mimics_resolveSymbol plays mimicking told head.symbol opened).bind
          (fun outcome => ends scopes.targets outcome) fun _ _ _ resolved => ?_
        exact tracks_endTag plays scopes.targets resolved.1 (gained.grow resolved.2)

theorem mimics_expandAction (node : Node) :
    Mimics Outcome.Softens (expandAction inner node) (expandAction inner node) := by
  intro above
  refine (tracks_activate plays mimicking .bare _ above).bind (fun report => ?_)
    fun report other _ same => ?_
  · cases report.result <;> exact .pure _
  · obtain ⟨⟨agree, problems⟩, gained⟩ := same
    have told := (Node.Softens.refl node).addErrors problems
    generalize report.result = result at agree ⊢
    generalize other.result = twinResult at agree ⊢
    cases agree with
    | cut tag => exact .pure ⟨⟨rfl, told⟩, gained.le⟩
    | whole _ =>
      exact .pure ⟨⟨rfl, told.place, told.text, told.modifiers, told.errors⟩, gained.le⟩

theorem mimics_expandBody (node : Node) :
    Mimics Outcome.Softens (expandBody inner node) (expandBody inner node) := by
  simp only [expandBody]
  split
  · exact mimics_expandChildren plays mimicking (.refl node) node.raw
  · exact mimics_expandTag plays mimicking node
  · exact mimics_expandAction plays mimicking node
  · exact .pure ⟨rfl, .refl node⟩

end

/-- A node gets the same room in both runs. -/
theorem mimics_withRoom {body : Expander}
    (mimics : ∀ node, Mimics Outcome.Softens (body node) (body node)) (node : Node) :
    Mimics Outcome.Softens (withRoom body node) (withRoom body node) := by
  intro above live shown mirrors unpopped
  have alone (node : Node) := (Node.Softens.refl node).outcome none
  cases admission node live with
  | done expanded =>
    rw [withRoom_done body expanded, withRoom_done body expanded]
    exact ⟨above, ⟨alone _, le_rfl⟩, mirrors⟩
  | plain new plain =>
    rw [withRoom_plain body new plain, withRoom_plain body new plain]
    exact ⟨above, ⟨alone _, le_rfl⟩, mirrors⟩
  | full new asks full =>
    have fullToo : shown.tripped = true ∨ shown.limit ≤ shown.depth := by
      rwa [← mirrors.tripped, ← mirrors.limit, ← mirrors.depth]
    rw [withRoom_full body new asks full, withRoom_full body new asks fullToo, mirrors.limit]
    exact ⟨above, ⟨alone _, le_rfl⟩,
      ⟨mirrors.grammar, mirrors.rolls, mirrors.limit, mirrors.depth, rfl⟩⟩
  | room new asks going room =>
    have roomToo : shown.depth < shown.limit := by
      rwa [← mirrors.limit, ← mirrors.depth]
    rw [withRoom_room body new asks going room] at unpopped ⊢
    rw [withRoom_room body new asks (mirrors.tripped ▸ going) roomToo]
    have entered : (live.inside node.raw).Mirrors above (shown.inside node.raw) :=
      ⟨mirrors.grammar, mirrors.rolls, mirrors.limit, congrArg (· + 1) mirrors.depth,
        mirrors.tripped⟩
    have early := Run.leave_recalls _ unpopped
    obtain ⟨after, ends, mirrors⟩ := mimics node.begun above entered early
    exact ⟨after, ends, mirrors.leave⟩

theorem mimicking_expander {below : Expander} (plays : Plays below) (mimicking : Mimicking below)
    (levels : Nat) : Mimicking (expander below levels) := by
  induction levels with
  | zero => exact fun node _ => mimics_withRoom (mimics_expandBody plays mimicking) node
  | succ levels ih =>
    exact fun node _ => mimics_withRoom (mimics_expandBody (plays_expander plays levels) ih) node

theorem mimicking_idle : Mimicking idle :=
  fun node _ => .pure ((Node.Softens.refl node).outcome none)

end Engine

theorem mimicking_expandNode : Mimicking expandNode := by
  intro node fresh above live shown mirrors unpopped
  have expands := mimicking_expander plays_idle mimicking_idle (live.limit - live.depth) node fresh
    above mirrors
  simp only [expandNode, Run.bind_apply, Run.get_apply, ← mirrors.limit, ← mirrors.depth]
    at unpopped ⊢
  exact expands unpopped

theorem mimics_previewNode (node : Node) :
    Mimics Outcome.Softens (previewNode node) (previewNode node) :=
  mimics_withRoom (fun _ _ => .note _ (.pure ⟨(Node.Softens.refl _).outcome none, le_rfl⟩)) node

/-- A rule is expanded alike over mirrored stacks, to the same text or the same ambiguous tag. -/
theorem mimics_expandRule (rule : String) (options : ExpandOptions) :
    Mimics (Agree Node.Softens) (Run.expandRule rule options) (Run.expandRule rule options) := by
  have expands : Mimics Outcome.Softens (Run.expandOnce (.root rule) options.preventRecursion)
      (Run.expandOnce (.root rule) options.preventRecursion) := by
    rw [Run.expandOnce]
    split
    · exact mimics_previewNode _
    · exact mimicking_expandNode _ (Node.fresh_root rule)
  refine expands.map fun _ _ softens => softens.result.map fun node twin softens => ?_
  split
  · exact ⟨softens.place, congrArg unescape softens.text, softens.modifiers, softens.errors⟩
  · exact softens

end TextGrammar
