import TextGrammar.Proofs.Brackets
import TextGrammar.Proofs.Segments

/-! # Scoped pushes written out

A tag that pushes in its head does what bare actions around the tag do: the actions in front of it,
and a pop for each push behind it. Both ways expand one level below the rule: in one the actions run
inside the tag, in the other inside nodes of their own, and these end before the tag begins.
-/

namespace TextGrammar

open Engine Expansion

/-- The symbols that actions push onto, in order. -/
def pushTargets (bodies : List String) : List String :=
  bodies.filterMap fun body => (Action.parse body).pushed?

/-- A tag with actions in front of it and a pop behind it for each push among them. -/
def spelledOut (bodies : List String) (main : String) : List Segment :=
  bodies.map .action ++ ⟨.tag, main⟩ ::
    (pushTargets bodies).map fun target => .action (Action.pop target).text

/-- The segments of a spelled out tag are read back from their sources. -/
theorem readBack_spelledOut {bodies : List String} {main : String}
    (enclosable : ∀ body ∈ bodies, Enclosable body)
    (targets : ∀ target ∈ pushTargets bodies, Undelimited target) (nonempty : main ≠ "")
    (undelimited : Undelimited main) :
    ∀ segment ∈ spelledOut bodies main, segment.ReadBack := by
  refine List.forall_mem_append.mpr ⟨readBack_actions enclosable, List.forall_mem_cons.mpr
    ⟨readBack_tag nonempty (.plain undelimited), fun segment member => ?_⟩⟩
  obtain ⟨target, pushed, rfl⟩ := List.mem_map.mp member
  refine readBack_action (fun empty => ?_) (.plain fun ch member => ?_)
  · exact absurd (String.append_eq_empty_iff.mp empty).2 (by decide)
  · have word : Undelimited ":POP" := by simp [Undelimited, isDelimiter]
    rw [Action.text, String.toList_append] at member
    exact (List.mem_append.mp member).elim (targets target pushed ch) (word ch)

/-- The state in which what a node holds is expanded, but for the journal. -/
def Expansion.deeper (state : Expansion) : Expansion :=
  { state with depth := state.depth + 1 }

section

variable {view : Symbol → Symbol} {one other : Expansion}

theorem Expansion.Alike.inside (alike : one.Alike view other.deeper) (raw : String) :
    one.Alike view (other.inside raw) :=
  ⟨alike.grammar, alike.rolls, alike.limit, alike.depth, alike.tripped⟩

/-- What a node has left, the next one finds when it begins. -/
theorem Expansion.Alike.between (alike : one.Alike view other) (within : 0 < other.depth) :
    one.Alike view (Run.leave other).2.deeper :=
  ⟨alike.grammar, alike.rolls, alike.limit, alike.depth.trans (Nat.succ_pred_eq_of_pos within).symm,
    alike.tripped⟩

theorem Expansion.Alike.outside (alike : one.Alike view other.deeper) :
    (Run.leave one).2.Alike view other :=
  ⟨alike.grammar, alike.rolls, alike.limit, congrArg Nat.pred alike.depth, alike.tripped⟩

end

namespace Engine

/-- From where an action is run does not show in what it does. -/
theorem parallel_activate {view : Symbol → Symbol} (faithful : Symbol.Faithful view)
    {inner : Expander} (steady : Steady view inner) (site twinSite : Site) (action : Action) :
    Parallel view Eq (activate inner site action) (activate inner twinSite action) := by
  refine (Parallel.begin site twinSite action).andThen fun _ => ?_
  cases action with
  | push target rule =>
    refine ((inherited_parallel faithful steady).expandParts _).andThen fun parts => ?_
    cases parts.result with
    | error tag => exact .pure rfl
    | ok alternatives =>
      exact (Parallel.push faithful site twinSite target alternatives).andThen fun _ => .pure rfl
  | pop target => exact (Parallel.takeOff faithful _ _ target).andThen fun _ => .pure rfl
  | call rule =>
    refine (parallel_expandNested steady rule).andThen fun result => ?_
    cases result <;> exact .pure rfl

/-- The end of a tag takes off what a bare pop takes off. -/
theorem parallel_release {view : Symbol → Symbol} (faithful : Symbol.Faithful view)
    (inner : Expander) (site : Site) (target : String) :
    Parallel view (fun problems report => problems = report.problems) (Run.release target)
      (activate inner site (.pop target)) := by
  intro one other alike
  have begun : one.Alike view (Run.begin site (.pop target) other).2 :=
    ⟨alike.grammar, alike.rolls, alike.limit, alike.depth, alike.tripped⟩
  exact Parallel.takeOff faithful (.released target) (.popped target) target begun

/-- An action that is not cut short names the symbol that it pushes onto. -/
theorem result_activate {inner : Expander} {site : Site} {action : Action} {state : Expansion}
    {target : Option String}
    (through : (activate inner site action state).1.result = .ok target) :
    target = action.pushed? := by
  cases action with
  | push name rule =>
    simp only [activate, Run.bind_apply] at through
    generalize expandParts inner (Text.split ',' rule) _ = parts at through
    cases result : parts.1.result with
    | error tag =>
      simp only [result, Run.pure_apply, reduceCtorEq] at through
    | ok alternatives =>
      simp only [result, Run.bind_apply, Run.pure_apply] at through
      exact (Except.ok.inj through).symm
  | pop name => exact (Except.ok.inj through).symm
  | call rule =>
    simp only [activate, Run.bind_apply] at through
    generalize expandNested inner rule _ = nested at through
    cases result : nested.1 with
    | error tag => simp only [result, Run.pure_apply, reduceCtorEq] at through
    | ok node =>
      simp only [result, Run.pure_apply] at through
      exact (Except.ok.inj through).symm

/-- A node of an action gets the problems of the action. -/
theorem activate_of_expandAction {inner : Expander} {node : Node} {state ended : Expansion}
    {outcome : Outcome} (ran : expandAction inner node state = (outcome, ended))
    (through : outcome.fatal = none) :
    ∃ problems, activate inner .bare (Action.parse node.raw) state =
        (⟨.ok (Action.parse node.raw).pushed?, problems⟩, ended) ∧
      outcome.node.text = node.text ∧ outcome.node.errors = node.errors ++ problems := by
  simp only [expandAction, Run.bind_apply] at ran
  have named {target : Option String} : (activate inner .bare (Action.parse node.raw)
      state).1.result = .ok target → target = (Action.parse node.raw).pushed? := result_activate
  generalize activate inner .bare (Action.parse node.raw) state = report at ran named
  obtain ⟨⟨result, problems⟩, left⟩ := report
  cases result with
  | error tag =>
    cases ran
    contradiction
  | ok target =>
    cases ran
    rw [named rfl]
    exact ⟨problems, rfl, rfl, rfl⟩

/-- A bare action that does not hit the ceiling runs inside its node, and gives its problems and no
text. -/
theorem Gives.of_action {body : String} {rest : List Segment} {state after : Expansion}
    {text : String} {errors : List Problem}
    (gives : Gives (.action body :: rest) state text errors after) (going : after.tripped = false) :
    ∃ problems ran late,
      activate expandNode .bare (Action.parse body) (state.inside body) =
        (⟨.ok (Action.parse body).pushed?, problems⟩, ran) ∧
      0 < ran.depth ∧ errors = problems ++ late ∧ Gives rest (Run.leave ran).2 text late after := by
  obtain ⟨outcome, ended, back, late, inside, through, rfl, rfl, others⟩ :=
    Gives.inside SegmentKind.noConfusion gives going
  obtain ⟨problems, ran, text, errors⟩ := activate_of_expandAction inside through
  obtain ⟨_, episode⟩ := leads_activate plays_expandNode .bare (by decide) (Action.parse body)
    (state.inside body)
  have level : ended.depth = state.depth + 1 := (congrArg (·.2.depth) ran).symm.trans episode.depth
  refine ⟨problems, ended, late, ran, ?_, ?_, ?_⟩
  · rw [level]
    exact Nat.succ_pos _
  · rw [errors]
    rfl
  · rw [text]
    change Gives rest _ ("" ++ back) late after
    rwa [String.empty_append]

/-- The actions of a tag head do what the same actions do in front of the tag. -/
theorem openScopes_of_gives {bodies : List String} {rest : List Segment}
    {state after twin : Expansion} {text : String} {errors : List Problem}
    (gives : Gives (bodies.map .action ++ rest) state text errors after)
    (going : after.tripped = false) (alike : twin.Alike Symbol.unplaced state.deeper) :
    ∃ problems late ran opened,
      openScopes expandNode (bodies.map Action.parse) twin =
        (⟨pushTargets bodies, problems, none⟩, opened) ∧
      errors = problems ++ late ∧ Gives rest ran text late after ∧
      opened.Alike Symbol.unplaced ran.deeper := by
  -- On the actions: what is inside the tag looks like what is inside the node that comes next.
  induction bodies generalizing state twin errors with
  | nil => exact ⟨[], errors, state, twin, rfl, rfl, gives, alike⟩
  | cons body bodies ih =>
    obtain ⟨problems, ended, late, runs, within, rfl, others⟩ := Gives.of_action gives going
    obtain ⟨answers, left⟩ := parallel_activate Symbol.faithful_unplaced steady_unplaced .tagHead
      .bare (Action.parse body) (alike.inside body)
    rw [runs] at answers left
    obtain ⟨more, last, ran, opened, opens, rfl, gives, alike⟩ := ih others (left.between within)
    refine ⟨problems ++ more, last, ran, opened, ?_, (List.append_assoc ..).symm, gives, alike⟩
    simp only [List.map_cons, openScopes, Run.bind_apply, answers, opens, Run.pure_apply]
    cases pushed : (Action.parse body).pushed? <;>
      simp only [pushTargets, List.filterMap_cons, pushed, Option.toList_none, Option.toList_some,
        List.nil_append, List.singleton_append]

/-- The end of a tag does what the pops do behind the tag. -/
theorem closeScopes_of_gives {targets : List String}
    (absent : ∀ target ∈ targets, ':' ∉ target.toList) {state after twin : Expansion}
    {text : String} {errors : List Problem}
    (gives : Gives (targets.map fun target => .action (Action.pop target).text) state text errors
      after)
    (going : after.tripped = false) (alike : twin.Alike Symbol.unplaced state.deeper) :
    text = "" ∧ ∃ closed, closeScopes targets twin = (errors, closed) ∧
      closed.Alike Symbol.unplaced after.deeper := by
  induction targets generalizing state twin errors with
  | nil =>
    cases gives
    exact ⟨rfl, twin, rfl, alike⟩
  | cons target rest ih =>
    obtain ⟨first, restAbsent⟩ := List.forall_mem_cons.mp absent
    obtain ⟨problems, ended, late, runs, within, rfl, others⟩ := Gives.of_action gives going
    rw [parse_text_pop first] at runs
    obtain ⟨answers, left⟩ := parallel_release Symbol.faithful_unplaced expandNode .bare target
      (alike.inside (Action.pop target).text)
    rw [runs] at answers left
    obtain ⟨empty, closed, closes, alike⟩ := ih restAbsent others (left.between within)
    refine ⟨empty, closed, ?_, alike⟩
    simp only [closeScopes, Run.bind_apply, answers, closes, Run.pure_apply]

/-- A tag without actions that does not hit the ceiling resolves its symbol inside its node, and so
does every tag of that symbol, with those modifiers, in the same place. -/
theorem resolveSymbol_of_gives {main symbol : String} {modifiers : List String}
    (parsed : TagHead.parse main = .ok { symbol, modifiers }) {rest : List Segment}
    {state after twin : Expansion} {text : String} {errors : List Problem}
    (gives : Gives (⟨.tag, main⟩ :: rest) state text errors after) (going : after.tripped = false)
    (alike : twin.Alike Symbol.unplaced state.deeper) (node : Node) (blank : node.text = "")
    (modified : node.modifiers = modifiers) :
    ∃ outcome resolved gained back late middle,
      resolveSymbol expandNode node symbol twin = (outcome, resolved) ∧ outcome.fatal = none ∧
      outcome.node.errors = node.errors ++ gained ∧ text = outcome.node.text ++ back ∧
      errors = gained ++ late ∧ Gives rest middle back late after ∧
      resolved.Alike Symbol.unplaced middle.deeper := by
  obtain ⟨whole, ended, back, late, inside, through, rfl, rfl, others⟩ :=
    Gives.inside SegmentKind.noConfusion gives going
  let plain := headed (Node.ofSegment ⟨0, 0⟩ 0 ⟨.tag, main⟩).begun { symbol, modifiers } []
  have begun : node.Grown plain node plain := .start blank modified
  obtain ⟨same, left⟩ := parallel_resolveSymbol placeless_expandNode begun steady_unplaced symbol
    (alike.inside main)
  obtain ⟨_, episode⟩ := leads_resolveSymbol plays_expandNode plain symbol (state.inside main)
  have level := episode.depth
  generalize resolveSymbol expandNode node symbol twin = own at same left ⊢
  generalize resolves : resolveSymbol expandNode plain symbol (state.inside main) = result
    at same left level
  obtain ⟨plainOutcome, plainResolved⟩ := result
  have tag : expandTag expandNode (Node.ofSegment ⟨0, 0⟩ 0 ⟨.tag, main⟩).begun
      (state.inside main) = _ := expandTag_of_parts parsed rfl rfl resolves rfl
  cases inside.symm.trans tag
  obtain ⟨gained, errors, plainErrors⟩ := same.node.errors
  refine ⟨own.1, own.2, gained, back, late, _, rfl, same.fatal.trans through, errors,
    congrArg (· ++ back) same.node.text.symm, ?_, others, left.between ?_⟩
  · change plainOutcome.node.errors ++ [] ++ late = _
    rw [List.append_nil, plainErrors]
    rfl
  · rw [level]
    exact Nat.succ_pos _

/-- A tag that runs actions in its head gives what it gives spelled out. -/
theorem gives_written {bodies : List String} {main symbol : String} {modifiers : List String}
    (plain : TagHead.parse main = .ok { symbol, modifiers })
    (parsed : TagHead.parse (TagHead.written bodies main) =
      .ok { symbol, modifiers, preactions := bodies })
    {state after : Expansion} {text : String} {errors : List Problem}
    (gives : Gives (spelledOut bodies main) state text errors after)
    (going : after.tripped = false) :
    ∃ ended, Gives [⟨.tag, TagHead.written bodies main⟩] state text errors ended ∧
      ended.Alike Symbol.unplaced after := by
  have ⟨clear, room⟩ : state.tripped = false ∧ state.depth < state.limit := by
    cases bodies with
    | nil => exact Gives.room SegmentKind.noConfusion gives going
    | cons body rest => exact Gives.room SegmentKind.noConfusion gives going
  have absent : ∀ target ∈ pushTargets bodies, ':' ∉ target.toList := by
    intro target member
    obtain ⟨body, _, pushed⟩ := List.mem_filterMap.mp member
    exact colon_notMem_of_pushed pushed
  let segment : Segment := ⟨.tag, TagHead.written bodies main⟩
  let node := (Node.ofSegment ⟨0, 0⟩ 0 segment).begun
  -- The actions, the symbol and the pops, each inside the tag as in a node of its own.
  have begins : (Run.note [] (state.inside segment.raw)).2.Alike Symbol.unplaced state.deeper :=
    ⟨rfl, rfl, rfl, rfl, rfl⟩
  obtain ⟨problems, late, ran, opened, opens, rfl, gives, alike⟩ :=
    openScopes_of_gives gives going begins
  obtain ⟨outcome, resolved, gained, back, last, middle, resolves, through, told, rfl, rfl, gives,
      alike⟩ :=
    resolveSymbol_of_gives plain gives going alike
      (headed node { symbol, modifiers, preactions := bodies } problems) rfl rfl
  obtain ⟨rfl, closed, closes, alike⟩ := closeScopes_of_gives absent gives going alike
  have tag : expandTag expandNode node (state.inside segment.raw) = _ :=
    expandTag_of_parts parsed opens rfl resolves closes
  have body : expandBody expandNode node (state.inside segment.raw) = _ := tag
  have first : expandNode (.ofSegment ⟨0, 0⟩ 0 segment) state = _ :=
    expandNode_inside SegmentKind.noConfusion clear room
  rw [body] at first
  have whole := Gives.cons first through (.nil _)
  rw [List.append_nil] at whole
  have errors : outcome.node.errors ++ last = problems ++ (gained ++ last) := by
    rw [told, List.append_assoc]
    rfl
  rw [← errors]
  exact ⟨_, whole, alike.outside⟩

end Engine

/-- Scoped pushes are pushes, a use and pops: a tag that runs actions in its head comes to what the
actions come to in front of the tag, with a pop behind it for each push among them. If the rule that
is spelled out succeeds and does not hit the ceiling, the tag succeeds and does not hit it either,
with the same text, the same problems, the same rolls and, apart from the places in the logs, the
same grammar. -/
theorem expandWith_written {grammar : Grammar} {bodies : List String} {main : String}
    {resolve : Bool} {rolls : Rolls} {node : Node}
    (enclosable : ∀ body ∈ bodies, Enclosable body)
    (targets : ∀ target ∈ pushTargets bodies, Undelimited target) (nonempty : main ≠ "")
    (undelimited : Undelimited main)
    (succeeds : (grammar.expandWith (Segment.rule (spelledOut bodies main))
      { resolveEscapes := resolve } rolls).1 = .ok node)
    (untripped : (grammar.expandWith (Segment.rule (spelledOut bodies main))
      { resolveEscapes := resolve } rolls).2.tripped = false) :
    let spelled := grammar.expandWith (Segment.rule (spelledOut bodies main))
      { resolveEscapes := resolve } rolls
    let short := grammar.expandWith (Segment.rule [⟨.tag, TagHead.written bodies main⟩])
      { resolveEscapes := resolve } rolls
    ∃ whole, short.1 = .ok whole ∧ whole.text = node.text ∧ whole.errors = node.errors ∧
      short.2.tripped = false ∧ short.2.rolls = spelled.2.rolls ∧
      short.2.grammar.unplaced = spelled.2.grammar.unplaced := by
  intro spelled short
  have room := room_of_untripped untripped
  obtain ⟨symbol, modifiers, parses⟩ := parse_written nonempty undelimited
  have parsed := parses bodies enclosable
  have plain : TagHead.parse main = .ok { symbol, modifiers } := by
    have plain := parses [] (List.forall_mem_nil _)
    rwa [TagHead.written, List.map_nil, Segment.rule, List.map_nil, String.join_nil,
      String.empty_append] at plain
  have segments := ofRule_rule (readBack_spelledOut enclosable targets nonempty undelimited)
  have segment := ofRule_rule
    (List.forall_mem_singleton.mpr (readBack_written enclosable nonempty undelimited))
  obtain ⟨text, errors, after, gives, yields, left⟩ := gives_of_expandWith room succeeds
  rw [segments] at gives yields
  have going := left.tripped.symm.trans untripped
  obtain ⟨ended, gives, same⟩ := gives_written plain parsed gives going
  have alone : [⟨.tag, TagHead.written bodies main⟩] = (Scanned.ofRule _).segments :=
    congrArg Scanned.segments segment.symm
  rw [alone] at gives
  obtain ⟨whole, shortSucceeds, shortYields, shortLeft⟩ := expandWith_of_gives room resolve gives
  rw [segment] at shortYields
  obtain ⟨sameText, sameErrors⟩ := Prod.ext_iff.mp (shortYields.trans yields.symm)
  have leaves := same.leave
  exact ⟨whole, shortSucceeds, sameText, sameErrors,
    shortLeft.tripped.trans (leaves.tripped.trans going),
    shortLeft.rolls.trans (leaves.rolls.trans left.rolls.symm),
    shortLeft.grammar.trans (leaves.grammar.trans left.grammar.symm)⟩

/-- A grammar for a song that is told who it is about. -/
def ballad : Grammar :=
  .ofWritten [("name", .one "ann"), ("refrain", .one "[mood:glad]"),
    ("song", .one "#hero# is #mood#")] {}

/-- Two pushes and a call in the head of a tag with a modifier that nobody knows. -/
theorem expandWith_written_ballad :
    let rolls : Rolls := { stream := fun _ => default }
    let bodies := ["hero:#name#", "mood:calm", "#refrain#"]
    let main := "song.loud"
    (∀ body ∈ bodies, Enclosable body) ∧ (∀ target ∈ pushTargets bodies, Undelimited target) ∧
      main ≠ "" ∧ Undelimited main ∧
      (ballad.expandWith (Segment.rule (spelledOut bodies main)) {} rolls).2.tripped = false ∧
      ∃ whole, (ballad.expandWith (Segment.rule [⟨.tag, TagHead.written bodies main⟩]) {} rolls).1 =
          .ok whole ∧
        whole.text = "ann is glad((.loud))" ∧ whole.errors = [.missingModifier "loud"] := by
  intro rolls bodies main
  have enclosable : ∀ body ∈ bodies, Enclosable body := by
    simp only [bodies, List.forall_mem_cons]
    exact ⟨⟨by decide, by cbv, by cbv⟩, ⟨by decide, by cbv, by cbv⟩, ⟨by decide, by cbv, by cbv⟩,
      List.forall_mem_nil _⟩
  have targets : ∀ target ∈ pushTargets bodies, Undelimited target := by
    have named : pushTargets bodies = ["hero", "mood"] := by
      simp only [bodies]
      cbv
    simp [named, Undelimited, isDelimiter]
  have undelimited : Undelimited main := by simp [main, Undelimited, isDelimiter]
  have nonempty : main ≠ "" := by decide
  have spelled : Segment.rule (spelledOut bodies main) =
      "[hero:#name#][mood:calm][#refrain#]#song.loud#[hero:POP][mood:POP]" := by
    simp only [bodies, main]
    cbv
  have untripped :
      (ballad.expandWith (Segment.rule (spelledOut bodies main)) {} rolls).2.tripped = false := by
    rw [spelled]
    decide +kernel
  have yields : (ballad.expandWith (Segment.rule (spelledOut bodies main)) {} rolls).1.toOption.map
      Node.yield = some ("ann is glad((.loud))", [.missingModifier "loud"]) := by
    rw [spelled]
    decide +kernel
  clear_value rolls bodies main
  obtain ⟨node, succeeds, seen⟩ := exists_ok_of_map yields
  obtain ⟨text, errors⟩ := Prod.ext_iff.mp seen
  obtain ⟨whole, shortSucceeds, sameText, sameErrors, _⟩ :=
    expandWith_written enclosable targets nonempty undelimited succeeds untripped
  exact ⟨enclosable, targets, nonempty, undelimited, untripped, whole, shortSucceeds,
    sameText.trans text, sameErrors.trans errors⟩

/-- A body whose end marks the bracket behind it leaves no action, and what it leaves differs. -/
theorem unpaired_body_breaks_tag :
    ¬ ∀ (grammar : Grammar) (bodies : List String) (main : String) (rolls : Rolls)
        (whole node : Node),
      (∀ body ∈ bodies, body ≠ "" ∧ bracketsClose 0 body.toList = true) →
      (∀ target ∈ pushTargets bodies, Undelimited target) → main ≠ "" → Undelimited main →
      (grammar.expandWith (Segment.rule [⟨.tag, TagHead.written bodies main⟩]) {} rolls).1 =
        .ok whole →
      (grammar.expandWith (Segment.rule (spelledOut bodies main)) {} rolls).1 = .ok node →
      (grammar.expandWith (Segment.rule [⟨.tag, TagHead.written bodies main⟩]) {} rolls).2.tripped =
        false →
      (grammar.expandWith (Segment.rule (spelledOut bodies main)) {} rolls).2.tripped = false →
      whole.text = node.text ∧ whole.errors = node.errors := by
  intro claim
  let rolls : Rolls := { stream := fun _ => default }
  let bodies := ["x:1\\"]
  have short : Segment.rule [⟨.tag, TagHead.written bodies "b"⟩] = "#[x:1\\]b#" := by
    simp only [bodies]
    cbv
  have spelled : Segment.rule (spelledOut bodies "b") = "[x:1\\]#b#[x:POP]" := by
    simp only [bodies]
    cbv
  have sound : ∀ body ∈ bodies, body ≠ "" ∧ bracketsClose 0 body.toList = true :=
    List.forall_mem_singleton.mpr ⟨by decide, by cbv⟩
  have targets : ∀ target ∈ pushTargets bodies, Undelimited target := by
    have named : pushTargets bodies = ["x"] := by
      simp only [bodies]
      cbv
    simp [named, Undelimited, isDelimiter]
  have undelimited : Undelimited "b" := by simp [Undelimited, isDelimiter]
  have shortText : (Grammar.expandWith {} "#[x:1\\]b#" {} rolls).1.toOption.map (·.text) =
      some "[x:1]b#" := by
    simp only [rolls]
    cbv
  have spelledText : (Grammar.expandWith {} "[x:1\\]#b#[x:POP]" {} rolls).1.toOption.map (·.text) =
      some "x:1]#b#[x:POP]" := by
    simp only [rolls]
    cbv
  have untripped : (Grammar.expandWith {} "#[x:1\\]b#" {} rolls).2.tripped = false ∧
      (Grammar.expandWith {} "[x:1\\]#b#[x:POP]" {} rolls).2.tripped = false := by
    simp only [rolls]
    cbv
  clear_value rolls bodies
  obtain ⟨whole, shortSucceeds, wholeText⟩ := exists_ok_of_map shortText
  obtain ⟨node, spelledSucceeds, nodeText⟩ := exists_ok_of_map spelledText
  rw [← short] at shortSucceeds untripped
  rw [← spelled] at spelledSucceeds untripped
  obtain ⟨same, _⟩ := claim {} bodies "b" rolls whole node sound targets (by decide) undelimited
    shortSucceeds spelledSucceeds untripped.1 untripped.2
  rw [wholeText, nodeText] at same
  contradiction

end TextGrammar
