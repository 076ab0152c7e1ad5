import TextGrammar.Proofs.Chronicle
import TextGrammar.Proofs.Enclosed
import TextGrammar.Proofs.Levels

/-! # What a run cannot avoid

Where a rule is expanded, so is every text inside it: a rule expands all its segments, a tag and an
action run all that is written in them. Two things only keep a run from that, an ambiguous tag that
cuts it short and the ceiling. So what comes of expanding a text also comes of expanding the rules
around it, if what came about stays, and hitting the ceiling counts too.
-/

namespace TextGrammar

open Engine Expansion

/-- Something that may come about in a run, told by events, and the states in which the run may
begin: those stay while nothing tells of it. -/
structure Fate where
  told : Event → Prop
  ready : Expansion → Prop
  ready_episode {keys : List String} {source target : Expansion} {events : List Event}
    (episode : Episode keys source events target) (untold : ∀ event ∈ events, ¬ told event)
    (begins : ready source) : ready target
  ready_enters {source target : Expansion} {raw : String} {depth : Nat}
    (enters : Step source (.entered raw depth) target) (begins : ready source) : ready target

namespace Fate

section

variable {fate : Fate} {α β : Type} {cut : α → Prop} {cutToo : β → Prop}
  {source target : Expansion} {keys : List String} {event : Event} {events : List Event}

/-- An event has told of the fate, or the ceiling was hit, which counts as well. -/
def met (fate : Fate) (state : Expansion) : Prop :=
  state.tripped = true ∨ ∃ event ∈ state.events, fate.told event

/-- What came about stays. -/
theorem met_step (step : Step source event target) (already : fate.met source) :
    fate.met target := by
  rcases already with tripped | ⟨other, member, told⟩
  · refine .inl ?_
    cases step <;> first | exact tripped | rfl
  · refine .inr ⟨other, ?_, told⟩
    rw [step.events]
    exact List.mem_append_left _ member

theorem met_path (path : Path Step source events target) (already : fate.met source) :
    fate.met target :=
  path.relate (fun s t => fate.met s → fate.met t) (fun _ => id)
    (fun first second => second ∘ first) met_step already

/-- A run may begin here, or the fate came about before. -/
def Begins (fate : Fate) (state : Expansion) : Prop :=
  fate.met state ∨ fate.ready state

theorem Begins.leads (begins : fate.Begins source) (leads : Leads keys source target) :
    fate.Begins target := by
  obtain ⟨events, episode⟩ := leads
  rcases begins with already | ready
  · exact .inl (met_path episode.path already)
  by_cases untold : ∀ event ∈ events, ¬ fate.told event
  · exact .inr (fate.ready_episode episode untold ready)
  · push Not at untold
    obtain ⟨event, member, told⟩ := untold
    refine .inl (.inr ⟨event, ?_, told⟩)
    rw [episode.path.events_eq]
    exact List.mem_append_right _ member

theorem Begins.enters {raw : String} {depth : Nat} (begins : fate.Begins source)
    (enters : Step source (.entered raw depth) target) : fate.Begins target :=
  begins.imp (met_step enters) (fate.ready_enters enters)

/-- A run that begins where it may is cut short, or the fate comes about. -/
def Befalls (fate : Fate) {α : Type} (cut : α → Prop) (run : Run α) : Prop :=
  ∀ state, fate.Begins state → cut (run state).1 ∨ fate.met (run state).2

namespace Befalls

/-- The fate comes about in the first of two runs. -/
theorem first {run : Run α} {next : α → Run β} (befalls : fate.Befalls cut run)
    (stops : ∀ value state, cut value → cutToo (next value state).1)
    (goesOn : ∀ value, (next value).Walks) : fate.Befalls cutToo (run >>= next) := by
  intro state begins
  rcases befalls state begins with short | met
  · exact .inl (stops _ _ short)
  · obtain ⟨events, path⟩ := goesOn (run state).1 (run state).2
    exact .inr (met_path path met)

/-- The fate comes about in one of two runs: the second begins where the first was cut short. -/
theorem bind {run : Run α} {next : α → Run β} (befalls : fate.Befalls cut run)
    (goesOn : ∀ state, ∃ keys, Leads keys state (run state).2)
    (after : ∀ value, cut value → fate.Befalls cutToo (next value))
    (walks : ∀ value, (next value).Walks) : fate.Befalls cutToo (run >>= next) := by
  intro state begins
  rcases befalls state begins with short | met
  · obtain ⟨keys, leads⟩ := goesOn state
    exact after _ short _ (begins.leads leads)
  · obtain ⟨events, path⟩ := walks (run state).1 (run state).2
    exact .inr (met_path path met)

/-- The fate comes about in the second of two runs. -/
theorem second {run : Run α} {next : α → Run β}
    (goesOn : ∀ state, ∃ keys, Leads keys state (run state).2)
    (befalls : ∀ value, fate.Befalls cutToo (next value)) :
    fate.Befalls cutToo (run >>= next) := by
  intro state begins
  obtain ⟨keys, leads⟩ := goesOn state
  exact befalls _ _ (begins.leads leads)

end Befalls

end

/-- The expansion of a node was cut short. -/
abbrev Short (outcome : Outcome) : Prop :=
  outcome.fatal ≠ none

/-- An expansion of whole rules was cut short. -/
abbrev ShortReport {α : Type} (report : Report α) : Prop :=
  ∃ tag, report.result = .error tag

section

variable {fate : Fate} {node : Node} (new : node.expanded = false)
  (asks : node.kind ≠ .segment .plain)
include new asks

/-- What befalls the body of a node befalls the node: one that is refused hits the ceiling. -/
theorem befalls_expandNode_of_inside
    (inside : ∀ state, fate.Begins state → state.tripped = false → state.depth < state.limit →
      Short (expandBody expandNode node.begun (state.inside node.raw)).1 ∨
        fate.met (expandBody expandNode node.begun (state.inside node.raw)).2) :
    fate.Befalls Short (expandNode node) := by
  intro state begins
  rw [expandNode_eq]
  cases admission node state with
  | done expanded => exact absurd (new.symm.trans expanded) Bool.false_ne_true
  | plain _ plain => exact absurd plain asks
  | full _ _ full =>
    rw [withRoom_full _ new asks full]
    exact .inr (.inl rfl)
  | room _ _ going room =>
    rw [withRoom_room _ new asks going room, Run.bind_apply]
    rcases inside state begins going room with short | met
    · exact .inl short
    · exact .inr (met_step (Run.leave_step _) met)

theorem befalls_expandNode
    (body : fate.Befalls Short (expandBody expandNode node.begun)) :
    fate.Befalls Short (expandNode node) := by
  refine befalls_expandNode_of_inside new asks fun state begins going room => ?_
  exact body _ (begins.enters (.entered node.raw going room))

end

section

variable {fate : Fate}

theorem walks_expandNode : Inherited fun run => Run.Walks (run expandNode) :=
  inherited_walks plays_expandNode

/-- What befalls one of several siblings befalls them together. -/
theorem befalls_expandEach {nodes : List Node} {child : Node}
    (fresh : ∀ node ∈ nodes, node.Fresh) (member : child ∈ nodes)
    (befalls : fate.Befalls Short (expandNode child)) :
    fate.Befalls (fun siblings => siblings.fatal ≠ none) (expandEach expandNode nodes) := by
  induction nodes with
  | nil => contradiction
  | cons first rest ih =>
    obtain ⟨firstFresh, restFresh⟩ := List.forall_mem_cons.mp fresh
    have others := walks_expandNode.expandEach restFresh
    rcases List.mem_cons.mp member with rfl | later
    · refine befalls.first (fun outcome state short => ?_) fun outcome => ?_
      · obtain ⟨tag, fatal⟩ := Option.ne_none_iff_exists'.mp short
        rw [fatal]
        exact Option.some_ne_none tag
      · cases outcome.fatal with
        | some tag => exact .pure _
        | none => exact others.bind fun _ => .pure _
    · refine .second (fun state => ⟨[], plays_expandNode.leads firstFresh state⟩) fun outcome => ?_
      cases outcome.fatal with
      | some tag => exact fun _ _ => .inl (Option.some_ne_none tag)
      | none => exact (ih restFresh later).first (fun _ _ short => short) fun _ => .pure _

/-- What befalls a segment befalls every rule that it stands in. -/
theorem befalls_expandChildren {rule : String} {segment : Segment}
    (member : segment ∈ (Scanned.ofRule rule).segments)
    (befalls : ∀ parent index,
      fate.Befalls Short (expandNode (.ofSegment parent index segment))) (node : Node) :
    fate.Befalls Short (expandChildren expandNode node rule) := by
  obtain ⟨index, bound, rfl⟩ := List.getElem_of_mem member
  have child : Node.ofSegment node.place index (Scanned.ofRule rule).segments[index] ∈
      (node.adopt rule (Scanned.ofRule rule)).children :=
    List.mem_mapIdx.mpr ⟨index, bound, rfl⟩
  have each := befalls_expandEach (fresh_adopt node rule (Scanned.ofRule rule)) child
    (befalls node.place index)
  refine .second (fun state => ⟨[], leads_record_noted state _⟩) fun _ => ?_
  refine each.first (fun siblings state short => ?_) fun siblings => ?_
  · obtain ⟨tag, fatal⟩ := Option.ne_none_iff_exists'.mp short
    rw [fatal]
    exact Option.some_ne_none tag
  · cases siblings.fatal <;> exact .pure _

section

variable {text : String}
  (befalls : ∀ node, fate.Befalls Short (expandChildren expandNode node text))
include befalls

theorem befalls_expandNested :
    fate.Befalls (fun result => ∃ tag, result = .error tag) (expandNested expandNode text) := by
  have root : fate.Befalls Short (expandNode (.root text)) :=
    befalls_expandNode rfl (asks_root text) (befalls _)
  refine root.first (fun outcome state short => ?_) fun _ => .pure _
  obtain ⟨tag, fatal⟩ := Option.ne_none_iff_exists'.mp short
  exact ⟨tag, by rw [Run.pure_apply, Outcome.result, fatal]⟩

theorem befalls_expandParts {parts : List String} (member : text ∈ parts) :
    fate.Befalls ShortReport (expandParts expandNode parts) := by
  induction parts with
  | nil => contradiction
  | cons part rest ih =>
    rcases List.mem_cons.mp member with rfl | later
    · refine (befalls_expandNested befalls).first ?_ fun result => ?_
      · rintro _ _ ⟨tag, rfl⟩
        exact ⟨tag, rfl⟩
      · cases result with
        | error tag => exact .pure _
        | ok node => exact (walks_expandNode.expandParts rest).bind fun _ => .pure _
    · refine .second (fun state => ⟨[], leads_expandNested plays_expandNode part state⟩)
        fun result => ?_
      cases result with
      | error tag => exact fun _ _ => .inl ⟨tag, rfl⟩
      | ok node =>
        refine (ih later).first ?_ fun _ => .pure _
        rintro others _ ⟨tag, failed⟩
        exact ⟨tag, by rw [Run.pure_apply, failed]; rfl⟩

/-- What befalls a text befalls every action that expands it. -/
theorem befalls_activate (site : Site) {action : Action} (member : text ∈ action.texts) :
    fate.Befalls ShortReport (activate expandNode site action) := by
  refine .second (fun state => ⟨[], .quiet (Run.begin_step site action state) trivial⟩)
    fun _ => ?_
  cases action with
  | push target rule =>
    refine (befalls_expandParts befalls member).first ?_ fun parts => ?_
    · rintro parts _ ⟨tag, failed⟩
      exact ⟨tag, by rw [failed]; rfl⟩
    · cases parts.result with
      | error tag => exact .pure _
      | ok alternatives =>
        exact (walks_expandNode.push site target alternatives).bind fun _ => .pure _
  | pop target => contradiction
  | call rule =>
    rw [List.mem_singleton.mp member] at befalls
    refine (befalls_expandNested befalls).first ?_ fun result => ?_
    · rintro _ _ ⟨tag, rfl⟩
      exact ⟨tag, rfl⟩
    · cases result <;> exact .pure _

end

/-- What befalls one of the actions in a tag head befalls them together. -/
theorem befalls_openScopes {actions : List Action} {action : Action} (member : action ∈ actions)
    (befalls : fate.Befalls ShortReport (activate expandNode .tagHead action)) :
    fate.Befalls (fun scopes => scopes.fatal ≠ none) (openScopes expandNode actions) := by
  induction actions with
  | nil => contradiction
  | cons first rest ih =>
    rcases List.mem_cons.mp member with rfl | later
    · refine befalls.first ?_ fun report => ?_
      · rintro report _ ⟨tag, failed⟩
        rw [failed]
        exact Option.some_ne_none tag
      · cases report.result with
        | error tag => exact .pure _
        | ok target => exact (walks_expandNode.openScopes rest).bind fun _ => .pure _
    · refine .second (fun state => ⟨_, leads_activate_head plays_expandNode first state⟩)
        fun report => ?_
      cases report.result with
      | error tag => exact fun _ _ => .inl (Option.some_ne_none tag)
      | ok target => exact (ih later).first (fun _ _ short => short) fun _ => .pure _

section

variable {node : Node} {head : TagHead} (parsed : TagHead.parse node.raw = .ok head)
include parsed

omit parsed in
/-- What follows the head of a tag goes in steps. -/
theorem walks_tagTail (node : Node) (symbol : String) (scopes : Scopes) : Run.Walks (do
    let outcome ← match scopes.fatal with
      | some tag => pure ⟨node, some tag⟩
      | none => resolveSymbol expandNode node symbol
    let problems ← closeScopes scopes.targets
    pure { outcome with node := { outcome.node.addErrors problems with
      postactions := scopes.targets.map .pop } }) := by
  have closes (outcome : Outcome) : Run.Walks (closeScopes scopes.targets >>= fun problems =>
      pure { outcome with node := { outcome.node.addErrors problems with
        postactions := scopes.targets.map .pop } }) :=
    (walks_expandNode.closeScopes _).bind fun _ => .pure _
  cases scopes.fatal with
  | some tag => exact (Run.Walks.pure _).bind closes
  | none => exact (walks_expandNode.resolveSymbol _ _).bind closes

/-- What befalls the reading of the head of a tag befalls the tag. -/
theorem befalls_expandTag_of_head
    (befalls : fate.Befalls (fun _ => False) (Run.note head.problems)) :
    fate.Befalls Short (expandTag expandNode node) := by
  simp only [Engine.expandTag, parsed]
  refine befalls.first (fun _ _ => False.elim) fun _ => ?_
  exact (walks_expandNode.openScopes _).bind fun scopes => walks_tagTail _ head.symbol scopes

/-- What befalls an action in the head of a tag befalls the tag. -/
theorem befalls_expandTag_of_action {action : Action}
    (member : action ∈ head.preactions.map Action.parse)
    (befalls : fate.Befalls ShortReport (activate expandNode .tagHead action)) :
    fate.Befalls Short (expandTag expandNode node) := by
  simp only [Engine.expandTag, parsed]
  refine .second (fun state => ⟨[], leads_record_noted state _⟩) fun _ => ?_
  refine (befalls_openScopes member befalls).first (fun scopes state short => ?_)
    fun scopes => walks_tagTail _ head.symbol scopes
  obtain ⟨tag, fatal⟩ := Option.ne_none_iff_exists'.mp short
  rw [fatal]
  exact Option.some_ne_none tag

/-- What befalls the symbol of a tag befalls the tag, whatever its head does first. -/
theorem befalls_expandTag_of_symbol
    (befalls : ∀ node, fate.Befalls Short (resolveSymbol expandNode node head.symbol)) :
    fate.Befalls Short (expandTag expandNode node) := by
  simp only [Engine.expandTag, parsed]
  refine .second (fun state => ⟨[], leads_record_noted state _⟩) fun _ => ?_
  refine .second (fun state => ⟨_, leads_openScopes plays_expandNode _ state⟩) fun scopes => ?_
  have closes (cut : Outcome) : Run.Walks (closeScopes scopes.targets >>= fun problems =>
      pure { cut with node := { cut.node.addErrors problems with
        postactions := scopes.targets.map .pop } }) :=
    (walks_expandNode.closeScopes _).bind fun _ => .pure _
  cases scopes.fatal with
  | some tag => exact fun _ _ => .inl (Option.some_ne_none tag)
  | none => exact (befalls _).first (fun _ _ short => short) closes

end

/-- What befalls the texts inside a rule befalls the rule: what runs them runs where it is
expanded. -/
theorem befalls_of_runs {text body inner : String} (body_mem : body ∈ bodies text)
    (inner_mem : inner ∈ (Action.parse body).texts)
    (befalls : ∀ node, fate.Befalls Short (expandChildren expandNode node inner)) (node : Node) :
    fate.Befalls Short (expandChildren expandNode node text) := by
  obtain ⟨⟨kind, raw⟩, found, runs⟩ := List.mem_flatMap.mp body_mem
  refine befalls_expandChildren found (fun parent index => ?_) node
  cases kind with
  | plain => contradiction
  | action =>
    rw [List.mem_singleton.mp runs] at inner_mem
    refine befalls_expandNode rfl (asks_ofSegment SegmentKind.noConfusion) ?_
    refine (befalls_activate befalls .bare inner_mem).first ?_ fun report => ?_
    · rintro report _ ⟨tag, failed⟩
      rw [failed]
      exact Option.some_ne_none tag
    · cases report.result <;> exact .pure _
  | tag =>
    simp only [Segment.bodies] at runs
    split at runs
    · contradiction
    · next head parsed =>
      refine befalls_expandNode rfl (asks_ofSegment SegmentKind.noConfusion) ?_
      exact befalls_expandTag_of_action parsed (List.mem_map_of_mem runs)
        (befalls_activate befalls .tagHead inner_mem)

/-- What befalls a text befalls every rule that it is inside of. -/
theorem befalls_of_encloses {rule text : String} (inside : Encloses rule text)
    (befalls : ∀ node, fate.Befalls Short (expandChildren expandNode node text)) (node : Node) :
    fate.Befalls Short (expandChildren expandNode node rule) := by
  induction inside generalizing node with
  | self => exact befalls node
  | run _ body_mem inner_mem ih => exact ih (befalls_of_runs body_mem inner_mem befalls) node

/-- What befalls the root of an expansion that gives a tree comes about in it. -/
theorem met_of_expanded {grammar : Grammar} {rule : String} {options : ExpandOptions}
    {rolls : Rolls} {root : Node} (befalls : fate.Befalls Short (expandNode (.root rule)))
    (ready : fate.ready (.start grammar rolls)) (expands : options.preventRecursion = false)
    (expanded : (grammar.expandWith rule options rolls).1 = .ok root) :
    fate.met (grammar.expandWith rule options rolls).2 := by
  have whole := fatal_of_expandRule expanded
  simp only [Run.expandOnce, expands, Bool.false_eq_true, ↓reduceIte] at whole
  have same : (grammar.expandWith rule options rolls).2 =
      (expandNode (.root rule) (.start grammar rolls)).2 := by
    change (Run.expandOnce (.root rule) options.preventRecursion (.start grammar rolls)).2 = _
    rw [expands]
    rfl
  rw [same]
  exact (befalls _ (.inr ready)).resolve_left (fun short => short whole)

end

end Fate

end TextGrammar
