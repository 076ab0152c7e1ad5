import TextGrammar.Proofs.Causes
import TextGrammar.Proofs.Equations
import TextGrammar.Proofs.Linting

/-! # Regimes

Where nothing pushes, a run reads texts of three kinds: those inside the rule that it expands, those
that selections give for the names of tags, and the conditions on the way to these. A regime says of
such texts which may be read, and of the grammar what stays true of it; its laws go text by text. An
expansion of what may be read then keeps to the regime all along, and no ambiguous tag ends it.
-/

namespace TextGrammar

open Engine

/-- Whether an event tells neither of a rule that was read nor of a selection. -/
def Event.Incidental : Event → Prop
  | .noted problem => problem.cause ≠ .reading ∧ problem.cause ≠ .selecting
  | .selected _ _ => False
  | _ => True

theorem Event.incidental_of_cause (cause : Cause) {problem : Problem}
    (caused : problem.cause = cause) (other : cause ≠ .reading ∧ cause ≠ .selecting) :
    Event.Incidental (.noted problem) := by
  rwa [← caused] at other

/-- The texts that may be read, what stays true of the grammar, and the events that come about. -/
structure Regime where
  reads : String → Prop
  keeps : Grammar → Prop
  admits : Event → Prop
  /-- The tags of what may be read are not ambiguous. -/
  tags {text raw : String} (read : reads text)
    (tag : ⟨.tag, raw⟩ ∈ (Scanned.ofRule text).segments) : ∃ head, TagHead.parse raw = .ok head
  /-- What may be read pushes nothing. -/
  pushless {text body target pushed : String} (read : reads text) (runs : body ∈ bodies text) :
    Action.parse body ≠ .push target pushed
  /-- What it calls may be read. -/
  calls {text body rule : String} (read : reads text) (runs : body ∈ bodies text)
    (called : Action.parse body = .call rule) : reads rule
  /-- What it pops may be popped. -/
  pops {text body target : String} {set : RuleSet} {grammar next : Grammar} (read : reads text)
    (runs : body ∈ bodies text) (pop : Action.parse body = .pop target) (kept : keeps grammar)
    (popped : grammar.pop target = .ok (set, next)) : keeps next
  /-- The conditions for a name that it uses may be read. -/
  asks {text name condition : String} {grammar : Grammar} {path : List String} (read : reads text)
    (names : Names text name) (kept : keeps grammar)
    (found : ((grammar.ruleSet? name).bind (·.descend? path)).bind (·.condition?) =
      some condition) : reads condition
  /-- What is selected for a name that it uses may be read. -/
  selects {text name : String} {grammar : Grammar} (read : reads text) (names : Names text name)
    (kept : keeps grammar) (origin : Option Place) (path : List String) (rolls : Rolls) :
    keeps (grammar.select name origin path rolls).grammar ∧
      reads ((grammar.select name origin path rolls).rule.getD (placeholder name))
  /-- A selection for a name that it uses is admitted, with the problems of it. -/
  selection {text name : String} {grammar : Grammar} (read : reads text) (names : Names text name)
    (kept : keeps grammar) (origin : Option Place) (path : List String) (rolls : Rolls) :
    admits (.selected name (grammar.select name origin path rolls).rule) ∧
      ∀ problem ∈ (grammar.select name origin path rolls).problems, admits (.noted problem)
  /-- The problems of reading it are admitted. -/
  reading {text : String} {problem : Problem} (read : reads text)
    (met : problem ∈ (Scanned.ofRule text).problems) : admits (.noted problem)
  /-- The problems of reading the heads of its tags are admitted. -/
  heading {text raw : String} {problem : Problem} (read : reads text)
    (tag : ⟨.tag, raw⟩ ∈ (Scanned.ofRule text).segments)
    (met : problem ∈ (Scanned.ofRule raw).problems) : admits (.noted problem)
  incidental {event : Event} (free : event.Incidental) : admits event

namespace Regime

variable (regime : Regime)

/-- A state that keeps to a regime. -/
structure Holds (state : Expansion) : Prop where
  keeps : regime.keeps state.grammar
  admits : ∀ event ∈ state.journal, regime.admits event

/-- From every state that keeps to the regime, a run leaves one, and what is said of its value
holds. -/
def Within {α : Type} (ends : α → Prop) (run : Run α) : Prop :=
  ∀ state, regime.Holds state → ends (run state).1 ∧ regime.Holds (run state).2

/-- A node that stands for a text that may be read, or for a segment of one. -/
def Takes (node : Node) : Prop :=
  match node.kind with
  | .root => regime.reads node.raw
  | .segment kind =>
    ∃ text, regime.reads text ∧ ⟨kind, node.raw⟩ ∈ (Scanned.ofRule text).segments

/-- An expander keeps to a regime, and is not cut short, on the nodes of texts that may be read. -/
def Binds (inner : Expander) : Prop :=
  ∀ node, regime.Takes node → regime.Within (fun outcome => outcome.fatal = none) (inner node)

variable {regime}

theorem Holds.record {state : Expansion} (holds : regime.Holds state) {events : List Event}
    (admitted : ∀ event ∈ events, regime.admits event) : regime.Holds (state.record events) where
  keeps := holds.keeps
  admits event member := by
    rcases List.mem_append.mp member with new | old
    · exact admitted event (List.mem_reverse.mp new)
    · exact holds.admits event old

namespace Within

variable {α β : Type} {ends : α → Prop} {gives : β → Prop}

theorem pure {value : α} (holds : ends value) : regime.Within ends (Pure.pure value) :=
  fun _ kept => ⟨holds, kept⟩

theorem bind {run : Run α} {next : α → Run β} (begins : regime.Within ends run)
    (goesOn : ∀ value, ends value → regime.Within gives (next value)) :
    regime.Within gives (run >>= next) := by
  intro state kept
  obtain ⟨holds, kept⟩ := begins state kept
  exact goesOn _ holds _ kept

theorem note {problems : List Problem}
    (admitted : ∀ problem ∈ problems, regime.admits (.noted problem)) :
    regime.Within (fun _ => True) (Run.note problems) :=
  fun _ kept => ⟨trivial, kept.record (List.forall_mem_map.mpr admitted)⟩

theorem begin (site : Site) (action : Action) :
    regime.Within (fun _ => True) (Run.begin site action) :=
  fun _ kept => ⟨trivial, kept.record (List.forall_mem_singleton.mpr (regime.incidental trivial))⟩

theorem leave : regime.Within (fun _ => True) Run.leave := by
  intro state kept
  have shallower : regime.Holds { state with depth := state.depth - 1 } := ⟨kept.keeps, kept.admits⟩
  exact ⟨trivial, shallower.record (List.forall_mem_singleton.mpr (regime.incidental trivial))⟩

theorem pop {text body target : String} (read : regime.reads text) (runs : body ∈ bodies text)
    (pops : Action.parse body = .pop target) :
    regime.Within (fun _ => True) (Run.pop target) := by
  intro state kept
  simp only [Run.pop, Run.takeOff]
  cases popped : state.grammar.pop target with
  | ok outcome =>
    obtain ⟨set, grammar⟩ := outcome
    have left : regime.Holds { state with grammar } :=
      ⟨regime.pops read runs pops kept.keeps popped, kept.admits⟩
    exact ⟨trivial, left.record (List.forall_mem_singleton.mpr (regime.incidental trivial))⟩
  | error problem =>
    have noted : Event.Incidental (.noted problem) :=
      Event.incidental_of_cause .takingOff (Grammar.cause_pop popped) (by decide)
    exact ⟨trivial, kept.record (List.forall_mem_cons.mpr
      ⟨regime.incidental trivial, List.forall_mem_singleton.mpr (regime.incidental noted)⟩)⟩

/-- What is selected for a name in use may be read. -/
theorem select {text name : String} (read : regime.reads text) (names : Names text name)
    (origin : Option Place) (path : List String) :
    regime.Within (fun answer => regime.reads (answer.1.getD (placeholder name)))
      (Run.select name origin path) := by
  intro state kept
  obtain ⟨grammar, chosen⟩ := regime.selects read names kept.keeps origin path state.rolls
  obtain ⟨selected, problems⟩ := regime.selection read names kept.keeps origin path state.rolls
  have left : regime.Holds { state with
      grammar := (state.grammar.select name origin path state.rolls).grammar
      rolls := (state.grammar.select name origin path state.rolls).rolls } :=
    ⟨grammar, kept.admits⟩
  exact ⟨chosen, left.record
    (List.forall_mem_cons.mpr ⟨selected, List.forall_mem_map.mpr problems⟩)⟩

theorem applyModifier (node : Node) (written : String) :
    regime.Within (fun _ => True) (applyModifier node written) := by
  intro state kept
  simp only [Engine.applyModifier, Run.bind_apply, Run.get_apply]
  cases state.grammar.modifier? (ModifierCall.parse written).name with
  | some modifier => exact ⟨trivial, kept⟩
  | none =>
    have noted := Event.incidental_of_cause .modifying
      (rfl : (Problem.missingModifier (ModifierCall.parse written).name).cause = _) (by decide)
    exact ⟨trivial, kept.record (List.forall_mem_singleton.mpr (regime.incidental noted))⟩

theorem applyModifiers (node : Node) (modifiers : List String) :
    regime.Within (fun _ => True) (applyModifiers node modifiers) := by
  induction modifiers generalizing node with
  | nil => exact .pure trivial
  | cons written rest ih => exact (applyModifier node written).bind fun node _ => ih node

end Within

theorem takes_adopt (node : Node) {text : String} (read : regime.reads text) :
    ∀ child ∈ (node.adopt text (Scanned.ofRule text)).children, regime.Takes child := by
  intro child member
  obtain ⟨index, bound, rfl⟩ := List.mem_mapIdx.mp member
  exact ⟨text, read, List.getElem_mem bound⟩

section

variable {inner : Expander} (binds : regime.Binds inner)
include binds

theorem within_expandEach {nodes : List Node} (takes : ∀ node ∈ nodes, regime.Takes node) :
    regime.Within (fun siblings => siblings.fatal = none) (expandEach inner nodes) := by
  induction nodes with
  | nil => exact .pure rfl
  | cons child rest ih =>
    obtain ⟨first, others⟩ := List.forall_mem_cons.mp takes
    refine (binds child first).bind fun outcome whole => ?_
    rw [whole]
    exact (ih others).bind fun _ rest => .pure rest

theorem within_expandChildren (node : Node) {text : String} (read : regime.reads text) :
    regime.Within (fun outcome => outcome.fatal = none) (expandChildren inner node text) := by
  refine (Within.note fun _ => regime.reading read).bind fun _ _ =>
    (within_expandEach binds (takes_adopt node read)).bind fun siblings whole => ?_
  rw [whole]
  exact .pure rfl

theorem within_expandNested {text : String} (read : regime.reads text) :
    regime.Within (fun result => ∃ node, result = .ok node) (expandNested inner text) :=
  (binds (.root text) read).bind fun outcome whole =>
    .pure ⟨outcome.node, by rw [Outcome.result, whole]⟩

/-- The actions of what may be read pop and call. -/
theorem within_activate (site : Site) {text body : String} (read : regime.reads text)
    (runs : body ∈ bodies text) :
    regime.Within (fun report => report.result = .ok none)
      (activate inner site (Action.parse body)) := by
  refine (Within.begin site _).bind fun _ _ => ?_
  cases parsed : Action.parse body with
  | push target pushed => exact absurd parsed (regime.pushless read runs)
  | pop target => exact (Within.pop read runs parsed).bind fun _ _ => .pure rfl
  | call rule =>
    refine (within_expandNested binds (regime.calls read runs parsed)).bind ?_
    rintro _ ⟨node, rfl⟩
    exact .pure rfl

theorem within_conditionPath {text name : String} (read : regime.reads text)
    (names : Names text name) (steps : Nat) (path : List String) :
    regime.Within (fun report => ∃ reached, report.result = .ok reached)
      (conditionPath inner name steps path) := by
  induction steps generalizing path with
  | zero => exact .pure ⟨path, rfl⟩
  | succ steps ih =>
    intro state kept
    cases asks : state.condition? name path with
    | none =>
      rw [conditionPath_of_none inner steps asks]
      exact ⟨⟨path, rfl⟩, kept⟩
    | some condition =>
      rw [conditionPath_of_some inner steps asks]
      have goesOn : regime.Within (fun report => ∃ reached, report.result = .ok reached)
          (expandNested inner condition >>= follow inner name steps path) := by
        refine (within_expandNested binds (regime.asks read names kept.keeps asks)).bind ?_
        rintro _ ⟨node, rfl⟩ state kept
        by_cases leads : state.leads name path node.text = true
        · rw [follow_of_leads inner steps leads]
          have deeper : regime.Within (fun report : Report (List String) =>
              ∃ reached, report.result = .ok reached)
              (conditionPath inner name steps (path ++ [node.text]) >>= fun deeper =>
                pure ⟨deeper.result, node.errors ++ deeper.problems⟩) :=
            (ih _).bind fun _ reached => .pure reached
          exact deeper state kept
        · rw [follow_of_astray inner steps leads]
          exact ⟨⟨path, rfl⟩, kept⟩
      exact goesOn state kept

theorem within_selectRule {text name : String} (read : regime.reads text)
    (names : Names text name) (origin : Option Place) :
    regime.Within (fun report => ∃ chosen, report.result = .ok chosen ∧
      regime.reads (chosen.getD (placeholder name))) (selectRule inner name origin) := by
  intro state kept
  rw [selectRule_apply]
  have chooses : regime.Within (fun report => ∃ chosen, report.result = .ok chosen ∧
      regime.reads (chosen.getD (placeholder name)))
      (conditionPath inner name state.limit [] >>= choose name origin) := by
    refine (within_conditionPath binds read names state.limit []).bind fun path succeeds => ?_
    obtain ⟨reached, whole⟩ := succeeds
    rw [choose, whole]
    exact (Within.select read names origin reached).bind fun answer chosen =>
      .pure ⟨answer.1, rfl, chosen⟩
  exact chooses state kept

theorem within_resolveSymbol (node : Node) {text name : String} (read : regime.reads text)
    (names : Names text name) :
    regime.Within (fun outcome => outcome.fatal = none) (resolveSymbol inner node name) := by
  refine (within_selectRule binds read names _).bind fun selected succeeds => ?_
  obtain ⟨chosen, whole, chosenRead⟩ := succeeds
  rw [whole]
  refine (within_expandChildren binds _ chosenRead).bind fun outcome whole => ?_
  rw [whole]
  exact (Within.applyModifiers _ _).bind fun _ _ => .pure rfl

/-- The actions in a tag head push nothing, so the end of the tag has nothing to undo. -/
theorem within_openScopes {text : String} (read : regime.reads text) {heads : List String}
    (run : ∀ body ∈ heads, body ∈ bodies text) :
    regime.Within (fun scopes => scopes.fatal = none ∧ scopes.targets = [])
      (openScopes inner (heads.map Action.parse)) := by
  induction heads with
  | nil => exact .pure ⟨rfl, rfl⟩
  | cons body rest ih =>
    obtain ⟨first, others⟩ := List.forall_mem_cons.mp run
    refine (within_activate binds .tagHead read first).bind fun report succeeds => ?_
    rw [succeeds]
    exact (ih others).bind fun _ rest => .pure rest

theorem within_expandTag {node : Node} {text : String} (read : regime.reads text)
    (tag : ⟨.tag, node.raw⟩ ∈ (Scanned.ofRule text).segments) :
    regime.Within (fun outcome => outcome.fatal = none) (expandTag inner node) := by
  obtain ⟨head, parsed⟩ := regime.tags read tag
  have names : Names text head.symbol := ⟨node.raw, head, tag, parsed, rfl⟩
  have run : ∀ body ∈ head.preactions, body ∈ bodies text := by
    intro body inHead
    refine List.mem_flatMap.mpr ⟨_, tag, ?_⟩
    simpa only [Segment.bodies, parsed] using inHead
  have noted : ∀ problem ∈ head.problems, regime.admits (.noted problem) := by
    rw [TagHead.problems_of_parse parsed]
    exact fun _ => regime.heading read tag
  simp only [expandTag, parsed]
  refine (Within.note noted).bind fun _ _ =>
    (within_openScopes binds read run).bind fun scopes opened => ?_
  rw [opened.1, opened.2]
  exact (within_resolveSymbol binds _ read names).bind fun outcome whole => .pure whole

theorem within_expandAction {node : Node} {text : String} (read : regime.reads text)
    (action : ⟨.action, node.raw⟩ ∈ (Scanned.ofRule text).segments) :
    regime.Within (fun outcome => outcome.fatal = none) (expandAction inner node) := by
  have run : node.raw ∈ bodies text :=
    List.mem_flatMap.mpr ⟨_, action, List.mem_singleton_self node.raw⟩
  refine (within_activate binds .bare read run).bind fun report succeeds => ?_
  rw [succeeds]
  exact .pure rfl

theorem binds_expandBody : regime.Binds (expandBody inner) := by
  intro node takes
  rcases kind : node.kind with _ | segment
  · simp only [Takes, kind] at takes
    simp only [expandBody, kind]
    exact within_expandChildren binds node takes
  · simp only [Takes, kind] at takes
    obtain ⟨text, read, member⟩ := takes
    cases segment with
    | plain =>
      simp only [expandBody, kind]
      exact .pure rfl
    | tag =>
      simp only [expandBody, kind]
      exact within_expandTag binds read member
    | action =>
      simp only [expandBody, kind]
      exact within_expandAction binds read member

end

theorem within_withRoom {body : Expander} {node : Node}
    (ran : regime.Within (fun outcome => outcome.fatal = none) (body node.begun)) :
    regime.Within (fun outcome => outcome.fatal = none) (withRoom body node) := by
  intro state kept
  cases admission node state with
  | done expanded =>
    rw [withRoom_done body expanded]
    exact ⟨rfl, kept⟩
  | plain new plain =>
    rw [withRoom_plain body new plain]
    exact ⟨rfl, kept⟩
  | full new asks full =>
    have tripped : regime.Holds { state with tripped := true } := ⟨kept.keeps, kept.admits⟩
    have noted : Event.Incidental (.noted (.recursionLimit state.limit node.raw)) :=
      Event.incidental_of_cause .room rfl (by decide)
    rw [withRoom_full body new asks full]
    exact ⟨rfl, tripped.record (List.forall_mem_cons.mpr
      ⟨regime.incidental trivial, List.forall_mem_singleton.mpr (regime.incidental noted)⟩)⟩
  | room new asks going room =>
    rw [withRoom_room body new asks going room]
    have inside : regime.Within (fun outcome => outcome.fatal = none)
        (body node.begun >>= fun outcome => do Run.leave; pure outcome) :=
      ran.bind fun outcome whole => Within.leave.bind fun _ _ => .pure whole
    have deeper : regime.Holds { state with depth := state.depth + 1 } :=
      ⟨kept.keeps, kept.admits⟩
    exact inside (state.inside node.raw)
      (deeper.record (List.forall_mem_singleton.mpr (regime.incidental trivial)))

theorem binds_withRoom {body : Expander} (binds : regime.Binds body) :
    regime.Binds (withRoom body) :=
  fun node takes => within_withRoom (binds node.begun takes)

theorem binds_expander {below : Expander} (binds : regime.Binds below) (levels : Nat) :
    regime.Binds (expander below levels) := by
  induction levels with
  | zero => exact binds_withRoom (binds_expandBody binds)
  | succ levels ih => exact binds_withRoom (binds_expandBody ih)

theorem binds_idle : regime.Binds idle :=
  fun _ _ => .pure rfl

theorem binds_expandNode : regime.Binds expandNode :=
  fun node takes state => binds_expander binds_idle (state.limit - state.depth) node takes state

/-- Showing what may be read keeps to the regime as well. -/
theorem within_preview {text : String} (read : regime.reads text) :
    regime.Within (fun outcome => outcome.fatal = none) (previewNode (.root text)) :=
  within_withRoom ((Within.note fun _ => regime.reading read).bind fun _ _ => .pure rfl)

/-- What may be read is expanded whatever the options are, and the run keeps to the regime. -/
theorem expandWith {text : String} (read : regime.reads text) {grammar : Grammar}
    (kept : regime.keeps grammar) (options : ExpandOptions) (rolls : Rolls) :
    (∃ root, (grammar.expandWith text options rolls).1 = .ok root) ∧
      regime.Holds (grammar.expandWith text options rolls).2 := by
  have once : regime.Within (fun outcome => outcome.fatal = none)
      (Run.expandOnce (.root text) options.preventRecursion) := by
    unfold Run.expandOnce
    split
    · exact within_preview read
    · exact binds_expandNode (.root text) read
  have expands : regime.Within (fun result => ∃ root, result = .ok root)
      (Run.expandRule text options) := by
    refine once.bind fun outcome whole => ?_
    rw [Outcome.result, whole]
    exact .pure ⟨_, rfl⟩
  exact expands (.start grammar rolls) ⟨kept, List.forall_mem_nil _⟩

end Regime

end TextGrammar
