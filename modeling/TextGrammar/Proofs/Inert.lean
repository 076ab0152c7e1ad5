import TextGrammar.Proofs.Conditions
import TextGrammar.Proofs.Derivations
import TextGrammar.Proofs.Named
import TextGrammar.Proofs.Picks
import TextGrammar.Proofs.Placeholders

/-! # Placeholders are inert

A tag for which no rule is found shows the placeholder for its symbol, and the placeholder is
expanded like a rule. Nothing comes of that: whatever a tag may call a symbol, no delimiter counts
in it, so the placeholder is one piece of plain text. It is copied, and at most a stray bracket in
it is noted. So the symbol is all that such a tag looks up, and no roll is drawn for it.
-/

namespace TextGrammar

open Engine Expansion

namespace Grammar

/-- Nothing is on offer for a name along a path: nothing supplies the name, or a symbol whose stack
is empty, or one with no alternative in any set that the path leads through. -/
inductive Lacks (grammar : Grammar) (key : String) (path : List String) : Prop
  | missing (unknown : grammar.supplied? key = none) : Lacks grammar key path
  | emptied {symbol : Symbol} (supplied : grammar.supplied? key = some symbol)
      (empty : symbol.stack = []) : Lacks grammar key path
  | barren {symbol : Symbol} {top : RuleSet} (supplied : grammar.supplied? key = some symbol)
      (active : symbol.top? = some top) (bare : ∀ set ∈ top.met path, set.defaults = []) :
      Lacks grammar key path

variable {grammar : Grammar} {key : String} {path : List String}

theorem selectAmong?_of_findSome?_eq_none {subs : List Grammar}
    (unknown : subs.findSome? (·.symbol? key) = none) (rolls : Rolls) :
    selectAmong? key path rolls subs = none := by
  induction subs with
  | nil => rfl
  | cons sub rest ih =>
    obtain ⟨first, others⟩ := List.forall_mem_cons.mp (List.findSome?_eq_none_iff.mp unknown)
    rw [selectAmong?, first, ih (List.findSome?_eq_none_iff.mpr others)]
    rfl

theorem Named.key_of_supplied? {symbol : Symbol} (named : grammar.Named)
    (supplied : grammar.supplied? key = some symbol) : symbol.key = key := by
  rcases Option.or_eq_some_iff.mp supplied with own | ⟨_, lent⟩
  · exact named.key_of_symbol? own
  · obtain ⟨sub, member, found⟩ := List.exists_of_findSome?_eq_some lent
    exact (named sub (List.mem_cons_of_mem _ member)).lookup found

/-- Where nothing is on offer, a selection comes to no rule or to the placeholder, and draws no
roll. -/
theorem answer_of_lacks (named : grammar.Named) (lacks : grammar.Lacks key path)
    (origin : Option Place) (rolls : Rolls) :
    ∃ rule problems, (grammar.select key origin path rolls).answer = (rule, problems, rolls) ∧
      rule.getD (placeholder key) = placeholder key := by
  cases lacks with
  | missing unknown =>
    obtain ⟨own, lent⟩ := Option.or_eq_none_iff.mp unknown
    refine ⟨some (placeholder key), [.missingSymbol key], ?_, rfl⟩
    simp only [select, own, selectAmong?_of_findSome?_eq_none lent]
    rfl
  | @emptied symbol supplied empty =>
    refine ⟨some (placeholder key), [.emptyRuleStack key], ?_, rfl⟩
    rw [answer_select supplied, Symbol.selectUnlogged, empty, named.key_of_supplied? supplied]
    rfl
  | @barren symbol top supplied active bare =>
    refine ⟨none, [.noDefaultRules key], ?_, rfl⟩
    have nothing := (top.select?_eq_none_iff rolls path).mpr bare
    rw [answer_select supplied, Symbol.answer_of_top? active, nothing,
      named.key_of_supplied? supplied]

end Grammar

/-- The child that copies a rule which is one piece of plain text. -/
def Node.copied (place : Place) (text : String) : Node :=
  { (Node.ofSegment place 0 ⟨.plain, text⟩).begun with text }

namespace Engine

/-- A rule that is one piece of plain text is copied, and only its own problems are noted. -/
theorem expandChildren_plain {text : String}
    (plain : (Scanned.ofRule text).segments = [⟨.plain, text⟩]) (node : Node)
    (state : Expansion) :
    expandChildren expandNode node text state =
      (⟨{ node.addErrors (Scanned.ofRule text).problems with
          childRule := some text, children := [.copied node.place text], text }, none⟩,
        state.record ((Scanned.ofRule text).problems.map .noted)) := by
  have copies : expandNode (.ofSegment node.place 0 ⟨.plain, text⟩) =
      fun state => (⟨.copied node.place text, none⟩, state) :=
    funext fun state => (expandNode_apply _ state).trans (withRoom_plain _ rfl rfl)
  have child : (node.adopt text (Scanned.ofRule text)).children =
      [.ofSegment node.place 0 ⟨.plain, text⟩] :=
    congrArg (List.mapIdx (Node.ofSegment node.place)) plain
  have ran (state : Expansion) :
      expandEach expandNode (node.adopt text (Scanned.ofRule text)).children state =
        (⟨[.copied node.place text], [], text, none⟩, state) := by
    simp only [child, expandEach, Run.bind_apply, copies, Run.pure_apply, String.append_empty]
    rfl
  have unchanged : (node.adopt text (Scanned.ofRule text)).addErrors [] =
      node.adopt text (Scanned.ofRule text) :=
    congrArg (fun errors => { node.adopt text (Scanned.ofRule text) with errors })
      (List.append_nil _)
  simp only [expandChildren, Run.bind_apply, Run.note_apply, ran, Run.pure_apply, unchanged]
  rfl

theorem applyModifier_notes (node : Node) (written : String) (state : Expansion) :
    ∃ problems : List Problem, (applyModifier node written state).2 =
      state.record (problems.map .noted) := by
  simp only [applyModifier, Run.bind_apply, Run.get_apply]
  cases state.grammar.modifier? (ModifierCall.parse written).name with
  | some modifier => exact ⟨[], rfl⟩
  | none => exact ⟨[.missingModifier _], rfl⟩

/-- Modifiers only note problems. -/
theorem applyModifiers_notes (node : Node) (modifiers : List String) (state : Expansion) :
    ∃ problems : List Problem, (applyModifiers node modifiers state).2 =
      state.record (problems.map .noted) := by
  induction modifiers generalizing node state with
  | nil => exact ⟨[], rfl⟩
  | cons written rest ih =>
    obtain ⟨first, noted⟩ := applyModifier_notes node written state
    obtain ⟨others, later⟩ := ih (applyModifier node written state).1
      (applyModifier node written state).2
    refine ⟨first ++ others, later.trans ?_⟩
    rw [noted, List.map_append, record_append]

theorem rolls_closeScopes (targets : List String) (state : Expansion) :
    (closeScopes targets state).2.rolls = state.rolls := by
  induction targets generalizing state with
  | nil => rfl
  | cons target rest ih =>
    have released : (Run.release target state).2.rolls = state.rolls := by
      rw [Run.release, Run.takeOff]
      split <;> rfl
    exact (ih (Run.release target state).2).trans released

/-- A tag that is not refused comes to look up its symbol: its head is read, the actions in it run
through, and the conditions of the symbol lead along a path. -/
structure Arrives (node : Node) (state : Expansion) (head : TagHead) (scopes : Scopes)
    (path : List String) (ready : Expansion) : Prop where
  kind : node.kind = .segment .tag
  new : node.expanded = false
  parsed : TagHead.parse node.raw = .ok head
  going : state.tripped = false
  room : state.depth < state.limit
  through : scopes.fatal = none
  leads : ∃ opened problems,
    openScopes expandNode (head.preactions.map Action.parse)
      ((state.inside node.raw).record (head.problems.map .noted)) = (scopes, opened) ∧
    conditionPath expandNode head.symbol opened.limit [] opened = (⟨.ok path, problems⟩, ready)

/-- A tag comes to the placeholder for its symbol, before its modifiers. From the selection on only
problems are noted, until the pushes of the head are undone. -/
structure ComesToPlaceholder (node : Node) (state : Expansion) (head : TagHead) (scopes : Scopes)
    (path : List String) (ready : Expansion) (outcome : Outcome) (after : Expansion) : Prop where
  fatal : outcome.fatal = none
  children : outcome.node.children = [.copied node.place (placeholder head.symbol)]
  text : outcome.node.text =
    head.modifiers.foldl state.grammar.modified (placeholder head.symbol)
  journal : ∃ problems : List Problem,
    let selected := (Run.select head.symbol (some node.place) path ready).2
    let noted := selected.record (problems.map .noted)
    after = (Run.leave (closeScopes scopes.targets noted).2).2
  rolls : after.rolls = ready.rolls

/-- A symbol for which nothing is on offer comes to its placeholder under the modifiers of the node,
and from the selection on only problems are noted. -/
theorem resolveSymbol_of_lacks {symbol : String} {path : List String} {problems : List Problem}
    {start opened ready : Expansion}
    (plain : (Scanned.ofRule (placeholder symbol)).segments = [⟨.plain, placeholder symbol⟩])
    (leads : conditionPath expandNode symbol opened.limit [] opened = (⟨.ok path, problems⟩, ready))
    (named : ready.grammar.Named) (lacks : ready.grammar.Lacks symbol path)
    (governs : start.Governs ready) (node : Node) :
    ∃ errors noted : List Problem, resolveSymbol expandNode node symbol opened =
      (⟨{ node with
          symbol := some symbol, childRule := some (placeholder symbol)
          children := [.copied node.place (placeholder symbol)]
          text := node.modifiers.foldl start.grammar.modified (placeholder symbol), errors }, none⟩,
        (Run.select symbol (some node.place) path ready).2.record (noted.map .noted)) := by
  obtain ⟨rule, missing, answer, shown⟩ :=
    Grammar.answer_of_lacks named lacks (some node.place) ready.rolls
  simp only [Grammar.Selection.answer, Prod.mk.injEq] at answer
  have selects : selectRule expandNode symbol (some node.place) opened =
      (⟨.ok rule, problems ++ missing⟩, (Run.select symbol (some node.place) path ready).2) := by
    rw [selectRule_apply, Run.bind_apply, leads, ← answer.1, ← answer.2.1]
    rfl
  -- The placeholder is copied, and then the modifiers are applied to it.
  let shows : Node := { (node.addErrors (problems ++ missing)).addErrors
      (Scanned.ofRule (placeholder symbol)).problems with
    symbol := some symbol, childRule := some (placeholder symbol)
    children := [.copied node.place (placeholder symbol)], text := placeholder symbol }
  let scanned := (Run.select symbol (some node.place) path ready).2.record
    ((Scanned.ofRule (placeholder symbol)).problems.map .noted)
  have governed : start.Governs scanned :=
    ⟨governs.limit, (Grammar.modifiers_select _ _ _ _ _).trans governs.modifiers⟩
  obtain ⟨errors, modified⟩ := applyModifiers_eq shows node.modifiers governed
  obtain ⟨noted, journal⟩ := applyModifiers_notes shows node.modifiers scanned
  refine ⟨errors, (Scanned.ofRule (placeholder symbol)).problems ++ noted, ?_⟩
  simp only [resolveSymbol, Run.bind_apply, selects, shown, expandChildren_plain plain,
    Run.pure_apply]
  rw [List.map_append, record_append, ← journal]
  exact Prod.ext (congrArg (Outcome.mk · none) modified) rfl

section

variable {node : Node} {state ready : Expansion} {head : TagHead} {scopes : Scopes}
  {path : List String}

theorem expandNode_tag (kind : node.kind = .segment .tag) (new : node.expanded = false)
    (going : state.tripped = false) (room : state.depth < state.limit) :
    expandNode node state =
      let inside := expandTag expandNode node.begun (state.inside node.raw)
      (inside.1, (Run.leave inside.2).2) := by
  have asks : node.kind ≠ .segment .plain := by
    rw [kind]
    exact fun same => SegmentKind.noConfusion (NodeKind.segment.inj same)
  have body : expandBody expandNode node.begun = expandTag expandNode node.begun := by
    simp only [expandBody, Node.begun, kind]
  rw [expandNode_apply, withRoom_room _ new asks going room, body]
  rfl

namespace Arrives

variable (arrives : Arrives node state head scopes path ready)
include arrives

/-- On its way to the symbol a tag goes from state to state in steps. -/
theorem walks : ∃ events, Path Step
    ((state.inside node.raw).record (head.problems.map .noted)) events ready := by
  obtain ⟨opened, problems, opens, leads⟩ := arrives.leads
  obtain ⟨early, begins⟩ := (inherited_walks plays_expandNode).openScopes
    (head.preactions.map Action.parse) ((state.inside node.raw).record (head.problems.map .noted))
  obtain ⟨late, goesOn⟩ := leads_conditionPath plays_expandNode head.symbol opened.limit [] opened
  simp only [opens] at begins
  rw [leads] at goesOn
  exact ⟨_, begins.append goesOn.path⟩

theorem governs : state.Governs ready := by
  obtain ⟨_, path⟩ := arrives.walks
  have begins : state.Governs ((state.inside node.raw).record (head.problems.map .noted)) :=
    ⟨rfl, rfl⟩
  exact path.governs begins

theorem named (named : state.grammar.Named) : ready.grammar.Named := by
  obtain ⟨_, path⟩ := arrives.walks
  exact kept_named.path path named

/-- A tag that comes to look up its symbol, and finds nothing on offer for it, comes to the
placeholder for it. -/
theorem comesToPlaceholder (named : state.grammar.Named)
    (lacks : ready.grammar.Lacks head.symbol path)
    (plain : (Scanned.ofRule (placeholder head.symbol)).segments =
      [⟨.plain, placeholder head.symbol⟩]) :
    ComesToPlaceholder node state head scopes path ready (expandNode node state).1
      (expandNode node state).2 := by
  obtain ⟨opened, problems, opens, leads⟩ := arrives.leads
  obtain ⟨errors, noted, resolves⟩ := resolveSymbol_of_lacks plain leads (arrives.named named)
    lacks arrives.governs (headed node.begun head scopes.problems)
  have tag : expandTag expandNode node.begun (state.inside node.raw) = _ :=
    expandTag_of_parts arrives.parsed opens arrives.through resolves Prod.mk.eta.symm
  have whole := expandNode_tag arrives.kind arrives.new arrives.going arrives.room
  rw [tag] at whole
  rw [whole]
  refine ⟨rfl, rfl, rfl, ⟨noted, rfl⟩, ?_⟩
  obtain ⟨_, _, answer, _⟩ := Grammar.answer_of_lacks (arrives.named named) lacks
    (some node.place) ready.rolls
  simp only [Grammar.Selection.answer, Prod.mk.injEq] at answer
  exact (rolls_closeScopes _ _).trans answer.2.2

end Arrives

/-- A tag whose head is read and that is not refused comes to look up its symbol, unless something
in its actions or in the conditions of the symbol cuts it short. -/
theorem exists_arrives (kind : node.kind = .segment .tag) (new : node.expanded = false)
    (parsed : TagHead.parse node.raw = .ok head) (going : state.tripped = false)
    (room : state.depth < state.limit)
    (through : (expandNode node state).1.fatal = none) :
    ∃ scopes path ready, Arrives node state head scopes path ready := by
  rw [expandNode_tag kind new going room] at through
  have read : TagHead.parse node.begun.raw = .ok head := parsed
  simp only [expandTag, read, Run.bind_apply] at through
  generalize opens : openScopes expandNode (head.preactions.map Action.parse)
    (Run.note head.problems (state.inside node.raw)).2 = opening at through
  cases fatal : opening.1.fatal with
  | some tag =>
    simp only [fatal] at through
    contradiction
  | none =>
    rcases leads : conditionPath expandNode head.symbol opening.2.limit [] opening.2 with
      ⟨⟨tag | path, problems⟩, ready⟩
    · simp only [fatal, resolveSymbol, Run.bind_apply, selectRule_apply, leads, choose,
        Run.pure_apply] at through
      contradiction
    · exact ⟨opening.1, path, ready, kind, new, parsed, going, room, fatal, opening.2, problems,
        opens, leads⟩

end

end Engine

/-- A placeholder is inert, whatever tag of whatever rule it stands for: it is scanned into one
piece of plain text, so expanding it copies it and at most notes stray brackets, and nothing else
happens to the state. A tag of the rule that is not refused either is cut short or comes to look up
its symbol, and if nothing is on offer for the symbol then, the tag comes to this placeholder under
its modifiers; from the selection on only problems are noted until the pushes of the head are
undone, and no roll is drawn. Symbols have to know their names, as they do in every grammar that can
be reached. -/
theorem placeholders_are_inert {rule raw : String} {head : TagHead}
    (member : ⟨.tag, raw⟩ ∈ (Scanned.ofRule rule).segments)
    (parsed : TagHead.parse raw = .ok head) :
    let shown := placeholder head.symbol
    (Scanned.ofRule shown).segments = [⟨.plain, shown⟩] ∧
      (∀ node state, ∃ problems : List Problem, (∀ problem ∈ problems, problem = .strayBracket) ∧
        expandChildren expandNode node shown state =
          (⟨{ node.addErrors problems with
              childRule := some shown
              children := [.copied node.place shown]
              text := shown }, none⟩,
            state.record (problems.map .noted))) ∧
      ∀ node state, node.kind = .segment .tag → node.raw = raw → node.expanded = false →
        state.tripped = false → state.depth < state.limit → state.grammar.Named →
        ((∃ cut, (expandNode node state).1.fatal = some cut) ∨
            ∃ scopes path ready, Arrives node state head scopes path ready) ∧
          ∀ scopes path ready, Arrives node state head scopes path ready →
            ready.grammar.Lacks head.symbol path →
            ComesToPlaceholder node state head scopes path ready (expandNode node state).1
              (expandNode node state).2 := by
  intro shown
  have names : Names rule head.symbol := ⟨raw, head, member, parsed, rfl⟩
  have plain : (Scanned.ofRule shown).segments = [⟨.plain, shown⟩] := segments_placeholder names
  refine ⟨plain, fun node state => ⟨(Scanned.ofRule shown).problems, ?_, ?_⟩, ?_⟩
  · exact fun problem met => strayBracket_of_placeholder names met
  · exact expandChildren_plain plain node state
  · rintro node state kind rfl new going room named
    constructor
    · cases fatal : (expandNode node state).1.fatal with
      | some cut => exact .inl ⟨cut, rfl⟩
      | none => exact .inr (exists_arrives kind new parsed going room fatal)
    · intro scopes path ready arrives lacks
      exact arrives.comesToPlaceholder named lacks plain

/-- A shed whose lock, of an odd name, has no alternative. -/
def shed : Grammar :=
  .ofWritten [("lock]", .many [])] {}

/-- The tag comes to the placeholder for the lock and, as the modifier is unknown, one for that. -/
theorem placeholders_are_inert_shed :
    let rolls : Rolls := { stream := fun _ => default }
    let state := start shed rolls
    let node := Node.ofSegment ⟨0, 0⟩ 0 ⟨.tag, "lock].of["⟩
    let head : TagHead := ⟨"lock]", ["of["], [], []⟩
    ⟨.tag, "lock].of["⟩ ∈ (Scanned.ofRule "a #lock].of[#").segments ∧
      TagHead.parse "lock].of[" = .ok head ∧ shed.Named ∧
      ∃ ready, Arrives node state head {} [] ready ∧ ready.grammar.Lacks "lock]" [] ∧
        (expandNode node state).1.fatal = none ∧
        (expandNode node state).1.node.text = "((lock]))((.of[))" ∧
        (expandNode node state).2.rolls = rolls := by
  intro rolls state node head
  have member : ⟨.tag, "lock].of["⟩ ∈ (Scanned.ofRule "a #lock].of[#").segments := by
    decide +kernel
  have parsed : TagHead.parse "lock].of[" = .ok head := by cbv
  have named : shed.Named :=
    (Grammar.pristine_ofWritten (List.pairwise_singleton _ _) {}).named
  have unconditional : state.condition? "lock]" [] = none := by cbv
  let ready := (state.inside "lock].of[").record []
  have leads : conditionPath expandNode "lock]" (63 + 1) [] ready = (⟨.ok [], []⟩, ready) :=
    conditionPath_of_none expandNode 63 unconditional
  have arrives : Arrives node state head {} [] ready :=
    ⟨rfl, rfl, parsed, rfl, by decide, rfl, ready, [], rfl, leads⟩
  have lacks : ready.grammar.Lacks "lock]" [] :=
    .barren rfl rfl (List.forall_mem_singleton.mpr rfl)
  obtain ⟨_, _, comes⟩ := placeholders_are_inert member parsed
  obtain ⟨_, inert⟩ := comes node state rfl rfl rfl rfl (by decide) named
  have shows := inert {} [] ready arrives lacks
  refine ⟨member, parsed, named, ready, arrives, lacks, shows.fatal, shows.text.trans ?_,
    shows.rolls⟩
  cbv

end TextGrammar
