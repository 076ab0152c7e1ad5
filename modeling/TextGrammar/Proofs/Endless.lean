import TextGrammar.Proofs.Inevitable
import TextGrammar.Proofs.Scoping
import TextGrammar.Proofs.Unambiguous

/-! # Symbols without an end

The linter reports a symbol as endless if each of its alternatives refers back to it. Where such a
reference stands does not matter: a rule runs everything inside it. So as long as nothing is pushed
onto the symbol or popped off it, its declared set is what every selection reads, whatever is
selected refers to it again, and each turn is one deeper, until the ceiling is hit.
-/

namespace TextGrammar

open Engine Expansion

/-- Whether an action pushes onto a name or pops it. -/
def Action.restacks (key : String) : Action → Bool
  | .push target _ => target == key
  | .pop target => target == key
  | .call _ => false

/-- Whether an event begins a push onto a name, or a pop. -/
def Event.restacks (key : String) : Event → Bool
  | .activated _ action => action.restacks key
  | _ => false

namespace Expansion

variable {source target : Expansion} {keys : List String} {events : List Event}

/-- A stretch of a run that neither pushes onto a name nor pops it leaves its stack alone, and the
end of the tag in progress will leave it alone as well. -/
theorem Episode.setsOn_of_untouched (episode : Episode keys source events target) {key : String}
    (untouched : ∀ event ∈ events, event.restacks key = false) :
    key ∉ keys ∧ target.grammar.setsOn key = source.grammar.setsOn key := by
  induction episode with
  | done state => exact ⟨List.not_mem_nil, rfl⟩
  | append _ _ left right =>
    obtain ⟨early, late⟩ := List.forall_mem_append.mp untouched
    obtain ⟨notFirst, first⟩ := left early
    obtain ⟨notSecond, second⟩ := right late
    refine ⟨?_, second.trans first⟩
    rw [List.mem_append, not_or]
    exact ⟨notFirst, notSecond⟩
  | @quiet source target event step calm =>
    refine ⟨List.not_mem_nil, (step.setsOn key).trans ?_⟩
    cases event <;> first | rfl | exact calm.elim
  | @pop source middle target site other set begins pops =>
    have different : ¬ other = key := ne_of_beq_false (untouched _ List.mem_cons_self)
    refine ⟨List.not_mem_nil, ?_⟩
    rw [pops.setsOn key, begins.setsOn key]
    cases set <;> simp only [Event.restack, different, ↓reduceIte]
  | @headPush source middle ready target other rule set events begins _ pushes ih =>
    obtain ⟨begun, rest⟩ := List.forall_mem_cons.mp untouched
    have different : ¬ other = key := ne_of_beq_false begun
    obtain ⟨_, parts⟩ := ih (List.forall_mem_append.mp rest).1
    refine ⟨fun member => different (List.mem_singleton.mp member).symm, ?_⟩
    rw [pushes.setsOn key, parts, begins.setsOn key]
    simp only [Event.restack, different, ↓reduceIte]
  | @freePush source middle ready target site other rule set events _ begins _ pushes ih =>
    obtain ⟨begun, rest⟩ := List.forall_mem_cons.mp untouched
    have different : ¬ other = key := ne_of_beq_false begun
    obtain ⟨_, parts⟩ := ih (List.forall_mem_append.mp rest).1
    refine ⟨List.not_mem_nil, ?_⟩
    rw [pushes.setsOn key, parts, begins.setsOn key]
    simp only [Event.restack, different, ↓reduceIte]
  | nested enters _ closes leaves ih =>
    obtain ⟨_, rest⟩ := List.forall_mem_cons.mp untouched
    obtain ⟨unpushed, inside⟩ := ih (List.forall_mem_append.mp rest).1
    have closed := closes.setsOn (List.nil_append _).symm
      (List.count_eq_zero_of_not_mem unpushed).symm
    refine ⟨List.not_mem_nil, ?_⟩
    rw [leaves.setsOn key]
    exact closed.trans (inside.trans (enters.setsOn key))

end Expansion

/-- Something is pushed onto a name or popped off it: the fate of an expansion with some room at
most, in which a declared set is alone on the stack of the name. -/
def Fate.straying (name : String) (base : RuleSet) (room : Nat) : Fate where
  told event := event.restacks name = true
  ready state := state.grammar.setsOn name = [base] ∧ state.limit - state.depth ≤ room
  ready_episode {keys source target events} episode untold begins := by
    have untouched : ∀ event ∈ events, event.restacks name = false :=
      fun event member => Bool.eq_false_iff.mpr (untold event member)
    refine ⟨(episode.setsOn_of_untouched untouched).2.trans begins.1, ?_⟩
    rw [episode.path.limit_eq, episode.depth]
    exact begins.2
  ready_enters {source target raw depth} enters begins := by
    have deeper : target.depth = source.depth + 1 := enters.depth
    refine ⟨(enters.setsOn name).trans begins.1, ?_⟩
    rw [enters.limit, deeper]
    omega

namespace RuleSet

theorem defaults_clear (set : RuleSet) : set.clear.defaults = set.defaults := by
  rw [defaults, pool_clear]
  rfl

/-- A set whose own pool is not empty always offers something. -/
theorem exists_select? {set : RuleSet} (offers : set.defaults ≠ []) (rolls : Rolls)
    (path : List String) : ∃ selected, set.select? rolls path = some selected := by
  have own : ∃ selected, set.selectDefault? rolls = some selected := by
    have nonempty : set.pool.alternatives ≠ [] := offers
    have within := pickIndex_lt set.pool.falloff rolls.head (List.length_pos_iff.mpr nonempty)
    simp only [selectDefault?, List.getElem?_eq_getElem within, Option.map_some]
    exact ⟨_, rfl⟩
  cases path with
  | nil => exact own
  | cons key rest =>
    simp only [select?]
    split
    · exact ⟨_, rfl⟩
    · exact own

end RuleSet

/-- Where a set that offers something is alone on the stack of a name, what is selected for the name
is one of its alternatives. -/
theorem Grammar.select_of_alone {grammar : Grammar} {name : String} {base : RuleSet}
    (stands : grammar.setsOn name = [base]) (offers : base.defaults ≠ [])
    (origin : Option Place) (path : List String) (rolls : Rolls) :
    ∃ rule ∈ Lint.alternatives base, (grammar.select name origin path rolls).rule = some rule := by
  cases found : grammar.symbol? name with
  | none =>
    rw [setsOn, found] at stands
    contradiction
  | some symbol =>
    rw [setsOn, found] at stands
    obtain ⟨top, alone, cleared⟩ := List.map_eq_singleton_iff.mp stands
    have nonempty : top.defaults ≠ [] := by
      rwa [← top.defaults_clear, cleared]
    obtain ⟨selected, selects⟩ := RuleSet.exists_select? nonempty rolls path
    refine ⟨selected.rule, ?_, ?_⟩
    · rw [← cleared, RuleSet.alternatives_clear]
      exact RuleSet.rule_mem_alternatives selects
    · simp only [select, found, Symbol.select, Symbol.selectUnlogged, alone, selects]

namespace Fate

variable {name : String} {base : RuleSet}

/-- A selection for an endless symbol is cut short, or gives one of the alternatives. -/
theorem befalls_selectRule (offers : base.defaults ≠ []) (room : Nat) (origin : Option Place) :
    (straying name base room).Befalls
      (fun report => ShortReport report ∨
        ∃ rule ∈ Lint.alternatives base, report.result = .ok (some rule))
      (selectRule expandNode name origin) := by
  intro state begins
  have leads := leads_conditionPath plays_expandNode name state.limit [] state
  have later := begins.leads leads
  rw [selectRule_apply, Run.bind_apply]
  generalize conditionPath expandNode name state.limit [] state = conditions at later ⊢
  obtain ⟨⟨result, problems⟩, reached⟩ := conditions
  cases result with
  | error tag => exact .inl (.inl ⟨tag, rfl⟩)
  | ok branches =>
    rcases later with strayed | ⟨stands, _⟩
    · obtain ⟨_, selects⟩ := Run.leads_select name origin branches reached
      exact .inr (met_path selects.path strayed)
    · obtain ⟨rule, member, selected⟩ :=
        Grammar.select_of_alone stands offers origin branches reached.rolls
      exact .inl (.inr ⟨rule, member, congrArg Except.ok selected⟩)

/-- If each alternative strays, so does the symbol. -/
theorem befalls_resolveSymbol (offers : base.defaults ≠ []) {room : Nat}
    (each : ∀ rule ∈ Lint.alternatives base, ∀ node,
      (straying name base room).Befalls Short (expandChildren expandNode node rule))
    (node : Node) :
    (straying name base room).Befalls Short (resolveSymbol expandNode node name) := by
  refine (befalls_selectRule offers room (some node.place)).bind
    (fun state => ⟨[], leads_selectRule plays_expandNode name _ state⟩) ?_ fun report => ?_
  · rintro ⟨_, problems⟩ (⟨tag, rfl⟩ | ⟨rule, member, rfl⟩)
    · exact fun _ _ => .inl (Option.some_ne_none tag)
    · refine (each rule member _).first (fun outcome state short => ?_) fun outcome => ?_
      · obtain ⟨tag, fatal⟩ := Option.ne_none_iff_exists'.mp short
        rw [fatal]
        exact Option.some_ne_none tag
      · cases outcome.fatal with
        | some tag => exact .pure _
        | none => exact (walks_expandNode.applyModifiers _ _).bind fun _ => .pure _
  · cases report.result with
    | error tag => exact .pure _
    | ok rule =>
      refine (walks_expandNode.expandChildren _ _).bind fun outcome => ?_
      cases outcome.fatal with
      | some tag => exact .pure _
      | none => exact (walks_expandNode.applyModifiers _ _).bind fun _ => .pure _

/-- A rule with an endless symbol inside strays. -/
theorem befalls_endless (offers : base.defaults ≠ [])
    (loops : ∀ rule ∈ Lint.alternatives base, ∃ text, Encloses rule text ∧ Names text name)
    (room : Nat) {rule text : String} (inside : Encloses rule text) (names : Names text name)
    (node : Node) :
    (straying name base room).Befalls Short (expandChildren expandNode node rule) := by
  -- Every turn through the symbol is one deeper: the induction is on the room that is left.
  induction room using Nat.strong_induction_on generalizing rule text node with
  | _ room ih =>
    obtain ⟨raw, head, found, parsed, rfl⟩ := names
    refine befalls_of_encloses inside (befalls_expandChildren found fun parent index => ?_) node
    refine befalls_expandNode_of_inside rfl (asks_ofSegment SegmentKind.noConfusion)
      fun state begins going free => ?_
    rcases begins with strayed | ⟨stands, little⟩
    · obtain ⟨_, path⟩ := walks_expandNode.expandBody
        (Node.ofSegment parent index ⟨.tag, raw⟩).begun (state.inside raw)
      exact .inr (met_path path (met_step (.entered raw going free) strayed))
    · have each (rule : String) (member : rule ∈ Lint.alternatives base) (node : Node) :
          (straying head.symbol base (room - 1)).Befalls Short
            (expandChildren expandNode node rule) := by
        obtain ⟨text, inside, names⟩ := loops rule member
        exact ih (room - 1) (by omega) inside names node
      have shallower : (state.inside raw).limit - (state.inside raw).depth ≤ room - 1 := by
        change state.limit - (state.depth + 1) ≤ room - 1
        omega
      have turn : (straying head.symbol base (room - 1)).Befalls Short
          (expandBody expandNode (Node.ofSegment parent index ⟨.tag, raw⟩).begun) :=
        befalls_expandTag_of_symbol parsed (befalls_resolveSymbol offers each)
      exact turn (state.inside raw) (.inr ⟨stands, shallower⟩)

end Fate

namespace Lint

variable {grammar : Grammar} {name : String} {symbol : Symbol}

/-- A symbol that is reported as endless is. -/
theorem isEndless_of_reported (ascending : Keyed.Ascending grammar.symbols)
    (declared : (name, symbol) ∈ grammar.symbols)
    (reported : .endless name ∈ (check grammar).faults) : isEndless name symbol = true := by
  rcases List.mem_append.mp reported with own | other
  · obtain ⟨⟨_, same⟩, kept, named⟩ := List.mem_map.mp own
    obtain ⟨stands, endless⟩ := List.mem_filter.mp kept
    cases named
    rwa [Option.some.inj ((ascending.lookup_of_mem declared).symm.trans
      (ascending.lookup_of_mem stands))]
  · obtain ⟨_, _, among⟩ := List.mem_flatMap.mp other
    rcases List.mem_append.mp among with flawed | dangling
    · obtain ⟨_, _, impossible⟩ := List.mem_map.mp flawed
      contradiction
    · obtain ⟨_, _, impossible⟩ := List.mem_map.mp dangling
      contradiction

/-- Inside every alternative of an endless symbol there is a tag that names it. -/
theorem names_of_isEndless (endless : isEndless name symbol = true) :
    ∀ rule ∈ alternatives symbol.base, ∃ text, Encloses rule text ∧ Names text name := by
  intro rule member
  have refers := List.all_eq_true.mp (Bool.and_eq_true_iff.mp endless).2 rule member
  exact (References.names_of_within (List.contains_iff_mem.mp refers)).2

end Lint

/-- Of a symbol that the linter reports as endless, and whose declared set has alternatives of its
own, every alternative hits the ceiling, wherever it refers back to the symbol: unless the run is
cut short, or the symbol is pushed onto or popped in it. -/
theorem endless_hits_ceiling {grammar : Grammar} {name : String} {symbol : Symbol}
    (built : grammar.Built) (declared : (name, symbol) ∈ grammar.symbols)
    (reported : .endless name ∈ (Lint.check grammar).faults)
    (offers : symbol.base.defaults ≠ []) {rule : String}
    (alternative : rule ∈ Lint.alternatives symbol.base) {rolls : Rolls} {root : Node}
    (expanded : (grammar.expand rule rolls).1 = .ok root)
    (untouched : ∀ event ∈ (grammar.expand rule rolls).2.events, event.restacks name = false) :
    ∃ limit raw, .recursionLimit limit raw ∈ root.errors := by
  have loops := Lint.names_of_isEndless
    (Lint.isEndless_of_reported built.pristine.ascending declared reported)
  obtain ⟨text, inside, names⟩ := loops rule alternative
  have whole : (Fate.straying name symbol.base grammar.settings.maxDepth).Befalls Fate.Short
      (expandNode (.root rule)) :=
    Fate.befalls_expandNode rfl (asks_root rule)
      (Fate.befalls_endless offers loops _ inside names _)
  have told := told_expandRule expanded
  rcases Fate.met_of_expanded whole ⟨built.pristine.setsOn declared, Nat.sub_le _ _⟩ rfl expanded
    with tripped | ⟨event, member, restacks⟩
  · exact Problem.any_isLimit_iff.mp (told.hit.symm.trans tripped)
  · exact absurd restacks (Bool.eq_false_iff.mp (untouched event member))

/-- A canyon that calls itself in the branch it always takes, and twice in its own alternative. -/
def canyon : Grammar :=
  .ofWritten (Keyed.ofEntries [
    ("echo", .conditional "#wind#" [("still", .one "[#echo#]hush")] ["#echo#, #echo#"]),
    ("wind", .one "still")]) { maxDepth := 4 }

/-- In the canyon the alternative without a tag of its own hits the ceiling. -/
theorem endless_hits_ceiling_canyon :
    .endless "echo" ∈ (Lint.check canyon).faults ∧
      ∃ root, (canyon.expand "[#echo#]hush" { stream := fun _ => default }).1 = .ok root ∧
        ∃ limit raw, .recursionLimit limit raw ∈ root.errors := by
  have built : canyon.Built := .ofEntries _ _
  have reported : .endless "echo" ∈ (Lint.check canyon).faults := by decide +kernel
  have shows : (canyon.expand "[#echo#]hush" { stream := fun _ => default }).1.toOption.map
      (·.text) = some "hush" := by cbv
  have untouched : (canyon.expand "[#echo#]hush" { stream := fun _ => default }).2.events.all
      (fun event => event.restacks "echo" == false) = true := by cbv
  cases expanded : (canyon.expand "[#echo#]hush" { stream := fun _ => default }).1 with
  | error tag =>
    rw [expanded] at shows
    cases shows
  | ok root =>
    refine ⟨reported, root, rfl, ?_⟩
    refine endless_hits_ceiling built (List.mem_of_getElem? (i := 0) rfl) reported
      (List.cons_ne_nil _ _) (List.mem_cons_of_mem _ List.mem_cons_self) expanded ?_
    intro event member
    exact eq_of_beq (List.all_eq_true.mp untouched event member)

end TextGrammar
