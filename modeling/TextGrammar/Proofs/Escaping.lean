import TextGrammar.Proofs.Literal
import TextGrammar.Proofs.ScopedPushes
import TextGrammar.Proofs.WellFormed

/-! # Escaped text

An escaped text is read as plain text wherever it stands, in a tag or within brackets too. So it
goes through every expansion as it is: as a rule of its own, as what a symbol has to offer, and as
what an action pushes. Its markers are resolved once, when the rule around it is finished, and what
they stood for comes out.
-/

namespace TextGrammar

open Engine Expansion

/-- What stands for a character in an escaped text. -/
def escapeChar (ch : Char) : List Char :=
  if isDelimiter ch then ['\\', ch] else [ch]

theorem toList_escape (text : String) : (escape text).toList = text.toList.flatMap escapeChar :=
  String.toList_ofList

theorem passes_escapeChar (ch : Char) (inTag : Bool) (depth : Int) :
    Passes inTag depth (escapeChar ch) depth := by
  cases delimiter : isDelimiter ch with
  | true =>
    rw [escapeChar, delimiter]
    exact .marked ch
  | false =>
    rw [escapeChar, delimiter]
    exact .other (.inl delimiter)

/-- The scan passes over an escaped text wherever it stands. -/
theorem passes_escape (text : String) (inTag : Bool) (depth : Int) :
    Passes inTag depth (escape text).toList depth := by
  rw [toList_escape]
  induction text.toList with
  | nil => exact .nil inTag depth
  | cons ch rest ih => exact (passes_escapeChar ch inTag depth).append ih

theorem literal_escape (text : String) : Literal (escape text) :=
  passes_escape text false 0

/-- What stands for a character is resolved to it, whatever follows. -/
theorem unescapeChars_escapeChar (ch : Char) (rest : List Char) :
    unescapeChars (escapeChar ch ++ rest) = ch :: unescapeChars rest := by
  by_cases slash : ch = '\\'
  · rw [slash]
    rfl
  · cases delimiter : isDelimiter ch <;>
      simp [escapeChar, delimiter, unescapeChars, slash]

theorem unescape_escape (text : String) : unescape (escape text) = text := by
  have resolved (chars : List Char) : unescapeChars (chars.flatMap escapeChar) = chars := by
    induction chars with
    | nil => rfl
    | cons ch rest ih => rw [List.flatMap_cons, unescapeChars_escapeChar, ih]
  rw [unescape, toList_escape, resolved, String.ofList_toList]

/-- Escaping adds nothing but backslashes. -/
theorem notMem_escape {ch : Char} {text : String} (absent : ch ∉ text.toList)
    (other : ch ≠ '\\') : ch ∉ (escape text).toList := by
  rw [toList_escape, List.mem_flatMap]
  rintro ⟨source, member, stands⟩
  have different : ch ≠ source := fun same => absent (same ▸ member)
  cases delimiter : isDelimiter source <;>
    simp [escapeChar, delimiter, different, other] at stands

theorem Text.split_of_notMem {mark : Char} {text : String} (absent : mark ∉ text.toList) :
    split mark text = [text] := by
  rw [split, List.splitOn_eq_singleton absent, List.map_singleton, String.ofList_toList]

/-- A name that can stand alone in a tag: plain text, which no dot cuts a modifier off. -/
structure Nameable (name : String) : Prop where
  wellFormed : Segment.WellFormed ⟨.plain, name⟩
  undotted : '.' ∉ name.toList

namespace Nameable

variable {name : String} (nameable : Nameable name)
include nameable

theorem passes (inTag : Bool) (depth : Int) : Passes inTag depth name.toList depth :=
  passes_plain nameable.wellFormed.admitted nameable.wellFormed.paired inTag depth

/-- A tag reads the name as its symbol. -/
theorem parse_eq : TagHead.parse name = .ok { symbol := name } := by
  have literal : Literal name := nameable.passes false 0
  have scanned : Scanned.ofRule name = ⟨[⟨.plain, name⟩], []⟩ := by
    obtain ⟨ch, rest, split⟩ := List.exists_cons_of_ne_nil fun none =>
      nameable.wellFormed.nonempty (String.toList_eq_nil_iff.mp none)
    rw [literal.ofRule_eq, split, Segment.plainOf, ← split, String.ofList_toList]
  have main : Scanned.plainTexts ⟨[⟨.plain, name⟩], []⟩ = [name] := rfl
  simp only [TagHead.parse, scanned, main, Text.split_of_notMem nameable.undotted]
  rfl

theorem readBack_tag : Segment.ReadBack ⟨.tag, name⟩ :=
  TextGrammar.readBack_tag nameable.wellFormed.nonempty (nameable.passes true 0)

/-- A push of an escaped text is read back. -/
theorem readBack_push (text : String) :
    (Segment.action (name ++ ":" ++ escape text)).ReadBack := by
  refine readBack_action (fun empty => ?_) ?_
  · rw [String.append_eq_empty_iff, String.append_eq_empty_iff] at empty
    exact absurd empty.1.2 (by decide)
  · have colon : Passes false 1 [':'] 1 := .other (.inl rfl)
    rw [String.toList_append, String.toList_append]
    exact ((nameable.passes false 1).append colon).append (passes_escape text false 1)

end Nameable

/-- An action that pushes an escaped text is read as that, but for the word that pops. -/
theorem parse_push_escape {name text : String} (absent : ':' ∉ name.toList)
    (pushes : text ≠ "POP") :
    Action.parse (name ++ ":" ++ escape text) = .push name (escape text) := by
  have cut : Text.cut? ':' (name ++ (":" ++ escape text)) = some (name, escape text) :=
    Text.cut?_append absent (escape text)
  have noPop : escape text ≠ "POP" := by
    intro same
    have word : unescape "POP" = "POP" := by decide
    exact pushes ((unescape_escape text).symm.trans ((congrArg unescape same).trans word))
  simp only [Action.parse, String.append_assoc, cut, noPop, ↓reduceIte]

/-- What was pushed last is on top of the stack. -/
theorem Grammar.top_push (grammar : Grammar) (key : String) (alternatives : List String) :
    ∃ symbol below, (grammar.push key alternatives).symbol? key = some symbol ∧
      symbol.stack = grammar.pushedSet alternatives :: below := by
  simp only [push, symbol?_insert, ↓reduceIte]
  cases grammar.symbol? key with
  | none => exact ⟨_, _, rfl, rfl⟩
  | some symbol => exact ⟨_, _, rfl, rfl⟩

/-- A pool in which only one rule stands, however often, offers this rule to every roll. -/
theorem RuleSet.selectDefault?_of_uniform {pool : Pool} {rule : String}
    (nonempty : pool.alternatives ≠ []) (uniform : ∀ other ∈ pool.alternatives, other = rule)
    (rolls : Rolls) :
    ∃ set, (plain pool).selectDefault? rolls = some ⟨rule, set, rolls.tail⟩ := by
  have within := pickIndex_lt pool.falloff rolls.head (List.length_pos_iff.mpr nonempty)
  have picked := uniform _ (List.getElem_mem within)
  simp only [selectDefault?, RuleSet.pool, List.getElem?_eq_getElem within, picked, Option.map_some]
  exact ⟨_, rfl⟩

namespace Engine

/-- Every selection of a symbol gives the rule that is alone in the set on top of its stack. -/
theorem selectRule_of_uniform {inner : Expander} {key rule : String} {symbol : Symbol} {pool : Pool}
    {below : List RuleSet} {state : Expansion} (room : 0 < state.limit)
    (found : state.grammar.symbol? key = some symbol) (stack : symbol.stack = .plain pool :: below)
    (nonempty : pool.alternatives ≠ []) (uniform : ∀ other ∈ pool.alternatives, other = rule)
    (origin : Option Place) :
    (selectRule inner key origin state).1 = ⟨.ok (some rule), []⟩ := by
  obtain ⟨steps, limit⟩ := Nat.exists_eq_succ_of_ne_zero (Nat.ne_of_gt room)
  have unconditional : state.condition? key [] = none := by
    simp only [condition?, setAt?, Grammar.ruleSet?, found, Symbol.top?, stack, List.head?_cons]
    rfl
  obtain ⟨set, selects⟩ := RuleSet.selectDefault?_of_uniform nonempty uniform state.rolls
  rw [selectRule_apply, limit, Run.bind_apply, conditionPath_of_none inner steps unconditional]
  simp only [choose, Run.bind_apply, Run.select, Grammar.select, found, Symbol.select,
    Symbol.selectUnlogged, stack, RuleSet.select?, selects, Run.pure_apply, List.append_nil]

/-- A tag whose selection finds a literal rule gives this rule. -/
theorem gives_tag_literal {name rule : String} (nameable : Nameable name) (literal : Literal rule)
    {state : Expansion} (going : state.tripped = false) (room : state.depth < state.limit)
    (selects : (selectRule expandNode name (some ⟨1, 0⟩) state.deeper).1.result = .ok (some rule)) :
    ∃ errors after, Gives [⟨.tag, name⟩] state rule errors after := by
  let node := headed (Node.ofSegment ⟨0, 0⟩ 0 ⟨.tag, name⟩).begun { symbol := name } []
  -- The selection is made inside the tag, where only the journal says more.
  have begins : (state.inside name).Alike Symbol.unplaced state.deeper := ⟨rfl, rfl, rfl, rfl, rfl⟩
  have answers : (selectRule expandNode name (some ⟨1, 0⟩) (state.inside name)).1 = _ :=
    (parallel_selectRule Symbol.faithful_unplaced steady_unplaced
      (fun same => Symbol.unplaced_log same rfl) name begins).1
  generalize ran : selectRule expandNode name (some ⟨1, 0⟩) (state.inside name) = selection
    at answers
  obtain ⟨⟨result, problems⟩, selected⟩ := selection
  obtain rfl : result = .ok (some rule) := (congrArg Report.result answers).trans selects
  obtain ⟨⟨gained, fatal⟩, children, through, text, _, modifiers⟩ := expandChildren_literal literal
    { node.addErrors problems with symbol := some name } selected
  cases through
  have resolves : resolveSymbol expandNode node name (state.inside name) =
      (⟨gained, none⟩, selected) := by
    have origin : node.place = ⟨1, 0⟩ := rfl
    have unmodified : gained.modifiers = [] := modifiers
    simp only [resolveSymbol, Run.bind_apply, origin, ran, Option.getD_some, children, unmodified,
      applyModifiers, Run.pure_apply]
  have tag : expandBody expandNode (Node.ofSegment ⟨0, 0⟩ 0 ⟨.tag, name⟩).begun
      (state.inside name) = _ := expandTag_of_parts nameable.parse_eq rfl rfl resolves rfl
  have first : expandNode (.ofSegment ⟨0, 0⟩ 0 ⟨.tag, name⟩) state = _ :=
    expandNode_inside SegmentKind.noConfusion going room
  rw [tag] at first
  have gives := Gives.cons first rfl (.nil _)
  rw [String.append_empty] at gives
  exact ⟨_, _, text ▸ gives⟩

/-- A literal rule without a comma is pushed as it is. -/
theorem activate_push_literal {rule : String} (literal : Literal rule) (whole : ',' ∉ rule.toList)
    (site : Site) (target : String) {state : Expansion} (going : state.tripped = false)
    (room : state.depth < state.limit) :
    ∃ journal, activate expandNode site (.push target rule) state =
      (⟨.ok (some target), []⟩,
        { state with grammar := state.grammar.push target [rule], journal }) := by
  have begun : (Run.begin site (.push target rule) state).2.tripped = false := going
  obtain ⟨node, events, ran, text, errors⟩ := expandNode_literal literal begun room
  have parts : expandParts expandNode [rule] (Run.begin site (.push target rule) state).2 =
      (⟨.ok [rule], []⟩, (Run.begin site (.push target rule) state).2.record events) := by
    simp only [expandParts, expandNested, Run.bind_apply, ran, Outcome.result, Run.pure_apply,
      text, errors, List.append_nil]
    rfl
  simp only [activate, Run.bind_apply, Text.split_of_notMem whole, parts, Run.pure_apply]
  exact ⟨_, rfl⟩

/-- The node of an action gets no text from an action that runs through. -/
theorem expandAction_of_activate {inner : Expander} {node : Node} {state after : Expansion}
    {target : Option String} {problems : List Problem}
    (ran : activate inner .bare (Action.parse node.raw) state = (⟨.ok target, problems⟩, after)) :
    expandAction inner node state = (⟨{ node.addErrors problems with
      action := some (Action.parse node.raw) }, none⟩, after) := by
  simp only [expandAction, Run.bind_apply, ran, Run.pure_apply]

/-- A bare push of an escaped text without a comma leaves it on the stack, and gives nothing. -/
theorem gives_push_escape {name text : String} (absent : ':' ∉ name.toList)
    (whole : ',' ∉ text.toList) (pushes : text ≠ "POP") {state : Expansion}
    (going : state.tripped = false) (room : state.depth + 1 < state.limit) :
    ∃ journal, Gives [.action (name ++ ":" ++ escape text)] state "" []
      { state with grammar := state.grammar.push name [escape text], journal } := by
  let segment := Segment.action (name ++ ":" ++ escape text)
  have inside : (state.inside segment.raw).tripped = false := going
  obtain ⟨journal, ran⟩ := activate_push_literal (literal_escape text)
    (notMem_escape whole (by decide)) .bare name inside room
  rw [← parse_push_escape absent pushes] at ran
  have body : expandBody expandNode (Node.ofSegment ⟨0, 0⟩ 0 segment).begun
      (state.inside segment.raw) = _ := expandAction_of_activate ran
  have first : expandNode (.ofSegment ⟨0, 0⟩ 0 segment) state = _ :=
    expandNode_inside SegmentKind.noConfusion going (Nat.lt_of_succ_lt room)
  rw [body] at first
  exact ⟨_, Gives.cons first rfl (.nil _)⟩

/-- A tag selects what was pushed before it. -/
theorem gives_push_tag {name text : String} (nameable : Nameable name) (absent : ':' ∉ name.toList)
    (whole : ',' ∉ text.toList) (pushes : text ≠ "POP") {state : Expansion}
    (going : state.tripped = false) (room : state.depth + 1 < state.limit) :
    ∃ errors after, Gives [.action (name ++ ":" ++ escape text), ⟨.tag, name⟩] state (escape text)
      errors after := by
  obtain ⟨journal, pushed⟩ := gives_push_escape absent whole pushes going room
  let middle : Expansion :=
    { state with grammar := state.grammar.push name [escape text], journal }
  have clear : middle.tripped = false := going
  have next : middle.depth < middle.limit := Nat.lt_of_succ_lt room
  have bounded : 0 < middle.deeper.limit := Nat.zero_lt_of_lt room
  obtain ⟨symbol, below, found, stack⟩ := state.grammar.top_push name [escape text]
  have selects : (selectRule expandNode name (some ⟨1, 0⟩) middle.deeper).1 = _ :=
    selectRule_of_uniform bounded found stack (List.cons_ne_nil _ _)
      (fun _ => List.eq_of_mem_singleton) _
  obtain ⟨errors, after, tag⟩ := gives_tag_literal nameable (literal_escape text) clear next
    (congrArg Report.result selects)
  have gives := pushed.append tag
  rw [String.empty_append] at gives
  exact ⟨_, _, gives⟩

end Engine

/-- What a tag selects for its symbol when it is all there is of the rule that is expanded. -/
def Grammar.tagSelection (grammar : Grammar) (name : String) (rolls : Rolls) :
    Report (Option String) :=
  (Engine.selectRule expandNode name (some ⟨1, 0⟩) (opened grammar rolls).deeper).1

/-- The text of a rule that is expanded for the rule around it, which keeps its escape markers. -/
def Grammar.nestedText (grammar : Grammar) (rule : String) (rolls : Rolls) :
    Except AmbiguousTag String :=
  (grammar.expandWith rule .nested rolls).1.map (·.text)

/-- The text of a rule expanded for the rule around it, which is expanded for the one around it, and
so on, each with a grammar and rolls of its own. -/
def nestedText (rounds : List (Grammar × Rolls)) (rule : String) : Except AmbiguousTag String :=
  rounds.foldlM (fun text round => round.1.nestedText text round.2) rule

/-- A literal text survives any number of expansions that leave escape markers alone. -/
theorem nestedText_literal {text : String} (literal : Literal text)
    {rounds : List (Grammar × Rolls)} (room : ∀ round ∈ rounds, 0 < round.1.settings.maxDepth) :
    nestedText rounds text = .ok text := by
  induction rounds with
  | nil => rfl
  | cons round rest ih =>
    obtain ⟨first, others⟩ := List.forall_mem_cons.mp room
    obtain ⟨node, after, ran, gives, _⟩ := expandWith_literal literal first false round.2
    have once : round.1.nestedText text round.2 = .ok text :=
      (congrArg (·.1.map (·.text)) ran).trans (congrArg Except.ok gives)
    rw [nestedText, List.foldlM_cons, once]
    exact ih others

section

variable {grammar : Grammar} (resolves : grammar.settings.resolveEscapes = true) {rolls : Rolls}
include resolves

/-- The text of a rule is what its segments give, with the escape markers resolved. -/
theorem flatten_of_gives (room : 0 < grammar.settings.maxDepth) {segments : List Segment}
    (readBack : ∀ segment ∈ segments, segment.ReadBack) {text : String} {errors : List Problem}
    {ended : Expansion} (gives : Gives segments (opened grammar rolls) text errors ended) :
    (grammar.flatten (Segment.rule segments) rolls).1 = .ok (unescape text) := by
  have scanned : segments = (Scanned.ofRule (Segment.rule segments)).segments :=
    congrArg Scanned.segments (ofRule_rule readBack).symm
  rw [scanned] at gives
  obtain ⟨node, ran, yields, _⟩ := expandWith_of_gives room true gives
  have shows : node.text = unescape text := congrArg Prod.fst yields
  simp only [Grammar.flatten, Grammar.expand, resolves, ran, Except.map, shows]

/-- An escaped text is expanded to the text, and nothing else happens. -/
theorem flatten_escape (room : 0 < grammar.settings.maxDepth) (text : String) :
    ∃ root after, grammar.expand (escape text) rolls = (.ok root, after) ∧
      grammar.flatten (escape text) rolls = (.ok text, after) ∧ root.errors = [] ∧
      after.rolls = rolls ∧ after.grammar = grammar := by
  obtain ⟨root, after, ran, shows, sound⟩ :=
    expandWith_literal (literal_escape text) room grammar.settings.resolveEscapes rolls
  rw [resolves, finished, if_pos rfl, unescape_escape] at shows
  refine ⟨root, after, ran, ?_, sound⟩
  simp only [Grammar.flatten, Grammar.expand, ran, Except.map, shows]

variable {name text : String} (nameable : Nameable name)
include nameable

/-- A tag whose selection finds an escaped text comes to the text. -/
theorem flatten_tag_escape (room : 1 < grammar.settings.maxDepth)
    (selects : (grammar.tagSelection name rolls).result = .ok (some (escape text))) :
    (grammar.flatten ("#" ++ name ++ "#") rolls).1 = .ok text := by
  have rule : "#" ++ name ++ "#" = Segment.rule [⟨.tag, name⟩] := by
    simp only [Segment.rule, Segment.source, SegmentKind.enclose, List.map_cons, List.map_nil,
      String.join_cons, String.join_nil, String.append_empty]
  have within : (opened grammar rolls).depth < (opened grammar rolls).limit := room
  obtain ⟨errors, after, gives⟩ :=
    gives_tag_literal nameable (literal_escape text) rfl within selects
  have readBack := List.forall_mem_singleton.mpr nameable.readBack_tag
  rw [rule, flatten_of_gives resolves (Nat.zero_lt_of_lt room) readBack gives, unescape_escape]

/-- A tag comes to an escaped text that was pushed before. -/
theorem flatten_push_escape (room : 2 < grammar.settings.maxDepth) (absent : ':' ∉ name.toList)
    (whole : ',' ∉ text.toList) (pushes : text ≠ "POP") :
    (grammar.flatten ("[" ++ name ++ ":" ++ escape text ++ "]#" ++ name ++ "#") rolls).1 =
      .ok text := by
  have rule : "[" ++ name ++ ":" ++ escape text ++ "]#" ++ name ++ "#" =
      Segment.rule [.action (name ++ ":" ++ escape text), ⟨.tag, name⟩] := by
    rw [show "]#" = "]" ++ "#" from rfl]
    simp only [Segment.rule, Segment.action, Segment.source, SegmentKind.enclose, List.map_cons,
      List.map_nil, String.join_cons, String.join_nil, String.append_assoc, String.append_empty]
  have within : (opened grammar rolls).depth + 1 < (opened grammar rolls).limit := room
  obtain ⟨errors, after, gives⟩ := gives_push_tag nameable absent whole pushes rfl within
  have readBack := List.forall_mem_cons.mpr
    ⟨nameable.readBack_push text, List.forall_mem_singleton.mpr nameable.readBack_tag⟩
  rw [rule, flatten_of_gives resolves (Nat.zero_lt_of_lt room) readBack gives, unescape_escape]

end

/-- Escaping protects every text. An escaped text comes to the text, without a problem, without a
roll and without a change to the grammar. A tag that selects the escaped text comes to the text, and
so does a tag of a symbol onto which it was just pushed. However often it is expanded for the rule
around it, its markers stay, to be resolved once. -/
theorem escape_protects {grammar : Grammar} (room : 3 ≤ grammar.settings.maxDepth)
    (resolves : grammar.settings.resolveEscapes = true) (text : String) (rolls : Rolls) :
    (∃ root after, grammar.expand (escape text) rolls = (.ok root, after) ∧
      grammar.flatten (escape text) rolls = (.ok text, after) ∧ root.errors = [] ∧
      after.rolls = rolls ∧ after.grammar = grammar) ∧
    (∀ name, Nameable name →
      (grammar.tagSelection name rolls).result = .ok (some (escape text)) →
      (grammar.flatten ("#" ++ name ++ "#") rolls).1 = .ok text) ∧
    (∀ name, Nameable name → ':' ∉ name.toList → ',' ∉ text.toList → text ≠ "POP" →
      (grammar.flatten ("[" ++ name ++ ":" ++ escape text ++ "]#" ++ name ++ "#") rolls).1 =
        .ok text) ∧
    ∀ rounds : List (Grammar × Rolls), (∀ round ∈ rounds, 0 < round.1.settings.maxDepth) →
      nestedText rounds (escape text) = .ok (escape text) := by
  refine ⟨flatten_escape resolves (by omega) text, fun name nameable selects => ?_,
    fun name nameable absent whole pushes => ?_, fun rounds rooms => ?_⟩
  · exact flatten_tag_escape resolves nameable (by omega) selects
  · exact flatten_push_escape resolves nameable room absent whole pushes
  · exact nestedText_literal (literal_escape text) rooms

/-- A grammar with one saying, full of delimiters, and with no room to spare. -/
def almanac : Grammar :=
  .ofWritten [("saw", .many ["\\[\\#\\\\\\\\\\]: é\\\\", "\\[\\#\\\\\\\\\\]: é\\\\"])]
    { maxDepth := 3 }

/-- Delimiters side by side, backslashes in front of one and at the end. -/
theorem escape_protects_almanac :
    let rolls : Rolls := { stream := fun _ => default }
    let text := "[#\\\\]: é\\"
    escape text = "\\[\\#\\\\\\\\\\]: é\\\\" ∧ 3 ≤ almanac.settings.maxDepth ∧
      almanac.settings.resolveEscapes = true ∧
      (almanac.flatten (escape text) rolls).1 = .ok text ∧
      (almanac.flatten "#saw#" rolls).1 = .ok text ∧
      (almanac.flatten "[saw:\\[\\#\\\\\\\\\\]: é\\\\]#saw#" rolls).1 = .ok text ∧
      nestedText [(almanac, rolls), ({}, rolls.tail)] (escape text) = .ok (escape text) := by
  intro rolls text
  have escaped : escape text = "\\[\\#\\\\\\\\\\]: é\\\\" := by
    simp only [text]
    cbv
  have nameable : Nameable "saw" := ⟨⟨by decide, by decide, by decide⟩, by decide⟩
  have selects : (almanac.tagSelection "saw" rolls).result = .ok (some (escape text)) := by
    rw [escaped]
    exact congrArg Report.result (selectRule_of_uniform (by decide) rfl rfl
      (List.cons_ne_nil _ _) (by simp [Pool.fresh]) _)
  have pushing : "[" ++ "saw" ++ ":" ++ escape text ++ "]#" ++ "saw" ++ "#" =
      "[saw:\\[\\#\\\\\\\\\\]: é\\\\]#saw#" := by
    rw [escaped]
    decide
  have whole : ',' ∉ text.toList := by
    simp [text]
  have pushes : text ≠ "POP" := by
    simp [text]
  clear_value rolls text
  obtain ⟨⟨_, _, _, flattened, _⟩, selected, pushed, survives⟩ :=
    @escape_protects almanac (by decide) rfl text rolls
  have tag := selected "saw" nameable selects
  have push := pushed "saw" nameable (by decide) whole pushes
  rw [pushing] at push
  refine ⟨escaped, by decide, rfl, congrArg Prod.fst flattened, tag, push, survives _ ?_⟩
  simp [almanac, Grammar.ofWritten]

end TextGrammar
