import TextGrammar.Proofs.Seams
import TextGrammar.Rule.Action
import TextGrammar.Rule.Escape
import TextGrammar.Rule.TagHead

/-! # Reading segments back from their source

Within brackets, and within a tag, the scan passes over a text whose own brackets close: such a
text is inert. So an action whose body is inert within its brackets, and a tag whose text is inert
within its marks, are read back from their sources, wherever the scan stands outside of tags and
brackets.
-/

namespace TextGrammar

/-- Whether the brackets of a text close, with some opened before it. A backslash takes the
character after it out of account. -/
def bracketsClose : Nat → List Char → Bool
  | opened, [] => opened == 0
  | opened, '\\' :: _ :: rest => bracketsClose opened rest
  | opened, '[' :: rest => bracketsClose (opened + 1) rest
  | 0, ']' :: _ => false
  | opened + 1, ']' :: rest => bracketsClose opened rest
  | opened, _ :: rest => bracketsClose opened rest

/-- Whether every `#` of a text stands within brackets, with some opened before it. A backslash
takes the character after it out of account. -/
def marksEnclosed : Nat → List Char → Bool
  | _, [] => true
  | opened, '\\' :: _ :: rest => marksEnclosed opened rest
  | opened, '[' :: rest => marksEnclosed (opened + 1) rest
  | opened, ']' :: rest => marksEnclosed (opened - 1) rest
  | 0, '#' :: _ => false
  | opened, _ :: rest => marksEnclosed opened rest

theorem marksEnclosed_of_cons {opened : Nat} {ch : Char} {rest : List Char} (slash : ch ≠ '\\')
    (opening : ch ≠ '[') (closing : ch ≠ ']')
    (enclosed : marksEnclosed opened (ch :: rest) = true) :
    (ch = '#' → 0 < opened) ∧ marksEnclosed opened rest = true := by
  rw [marksEnclosed.eq_def] at enclosed
  split at enclosed
  · contradiction
  · next same => exact absurd (List.cons.inj same).1 slash
  · next same => exact absurd (List.cons.inj same).1 opening
  · next same => exact absurd (List.cons.inj same).1 closing
  · contradiction
  · next outside same =>
    cases same
    exact ⟨fun mark => Nat.pos_of_ne_zero fun level => outside level mark, enclosed⟩

/-- A text that is left unescaped does not count for the end of what follows it. -/
theorem endsUnpaired_append (front : List Char)
    (unescaped : (Cursor.after {} front).escaped = false) (rest : List Char) :
    endsUnpaired (front ++ rest) = endsUnpaired rest := by
  have start : ({} : Cursor).escaped = false := rfl
  rw [← Cursor.escaped_after start (front ++ rest), Cursor.after, List.foldl_append]
  exact Cursor.escaped_after unescaped rest

theorem endsUnpaired_marked (ch : Char) (rest : List Char) :
    endsUnpaired ('\\' :: ch :: rest) = endsUnpaired rest :=
  endsUnpaired_append ['\\', ch] rfl rest

theorem endsUnpaired_cons {ch : Char} (other : ch ≠ '\\') (rest : List Char) :
    endsUnpaired (ch :: rest) = endsUnpaired rest :=
  endsUnpaired_append [ch]
    ((Cursor.escaped_step {} ch).trans (beq_false_of_ne other)) rest

namespace Cursor

/-- Where nothing ends a segment, the character goes to the open one. -/
theorem scan_within {cursor : Cursor} {ch : Char} (within : cursor.boundary? ch = none)
    (reversed rest : List Char) :
    cursor.scan reversed (ch :: rest) = (cursor.step ch).scan (ch :: reversed) rest := by
  simp only [scan, within]

theorem scan_boundary {cursor : Cursor} {ch : Char} {kind : SegmentKind}
    (ends : cursor.boundary? ch = some kind) (reversed rest : List Char) :
    cursor.scan reversed (ch :: rest) =
      .cut kind reversed cursor.position ((cursor.step ch).scan [] rest) := by
  simp only [scan, ends]

end Cursor

/-- A text over which the scan passes: nothing in it ends a segment, and it leads from one depth to
another. -/
def Passes (inTag : Bool) (depth : Int) (chars : List Char) (after : Int) : Prop :=
  ∀ cursor : Cursor, cursor.At depth inTag → ∃ next : Cursor, next.At after inTag ∧
    ∀ reversed more,
      cursor.scan reversed (chars ++ more) = next.scan (chars.reverse ++ reversed) more

namespace Passes

variable {inTag : Bool} {depth middle after : Int}

theorem nil (inTag : Bool) (depth : Int) : Passes inTag depth [] depth :=
  fun cursor stands => ⟨cursor, stands, fun _ _ => rfl⟩

theorem append {chars rest : List Char} (begins : Passes inTag depth chars middle)
    (goesOn : Passes inTag middle rest after) : Passes inTag depth (chars ++ rest) after := by
  intro cursor stands
  obtain ⟨between, stands, first⟩ := begins cursor stands
  obtain ⟨next, stands, second⟩ := goesOn between stands
  refine ⟨next, stands, fun reversed more => ?_⟩
  rw [List.append_assoc, first, second, List.reverse_append, List.append_assoc]

theorem single {ch : Char} (passes : ∀ cursor : Cursor, cursor.At depth inTag →
    cursor.boundary? ch = none ∧ (cursor.step ch).At after inTag) :
    Passes inTag depth [ch] after := by
  intro cursor stands
  obtain ⟨within, stands⟩ := passes cursor stands
  exact ⟨cursor.step ch, stands, fun reversed more => Cursor.scan_within within reversed more⟩

theorem cons {ch : Char} {rest : List Char} (first : Passes inTag depth [ch] middle)
    (goesOn : Passes inTag middle rest after) : Passes inTag depth (ch :: rest) after :=
  first.append goesOn

theorem opening (within : 0 < depth ∨ inTag = true) :
    Passes inTag depth ['['] (depth + 1) := by
  refine .single fun cursor stands => ?_
  rw [stands.eq]
  refine ⟨?_, rfl, rfl, rfl⟩
  simp only [Cursor.boundary?, Bool.false_eq_true, ↓reduceIte, ite_eq_right_iff, reduceCtorEq,
    imp_false, not_and, Bool.not_eq_false]
  rintro rfl
  exact within.resolve_left (lt_irrefl 0)

theorem closing (within : 1 < depth ∨ inTag = true) :
    Passes inTag depth [']'] (depth - 1) := by
  refine .single fun cursor stands => ?_
  rw [stands.eq]
  refine ⟨?_, rfl, rfl, rfl⟩
  simp only [Cursor.boundary?, Bool.false_eq_true, ↓reduceIte, ite_eq_right_iff, reduceCtorEq,
    imp_false, not_and, Bool.not_eq_false, Char.reduceEq]
  rintro rfl
  exact within.resolve_left (lt_irrefl 1)

/-- Within brackets a mark means nothing, and no other character does anywhere. -/
theorem other {ch : Char} (plain : isDelimiter ch = false ∨ ch = '#' ∧ 0 < depth) :
    Passes inTag depth [ch] depth := by
  refine .single fun cursor stands => ?_
  rw [stands.eq]
  rcases plain with plain | ⟨rfl, within⟩
  · simp only [isDelimiter, Bool.or_eq_false_iff, beq_eq_false_iff_ne] at plain
    obtain ⟨⟨⟨slash, mark⟩, opens⟩, closes⟩ := plain
    simp only [Cursor.boundary?, Cursor.step, slash, mark, opens, closes, Bool.false_eq_true,
      false_and, ↓reduceIte, true_and]
    exact ⟨rfl, rfl, rfl⟩
  · have inside : depth ≠ 0 := ne_of_gt within
    simp only [Cursor.boundary?, Cursor.step, inside, Bool.false_eq_true, and_false, ↓reduceIte,
      Char.reduceEq, true_and]
    exact ⟨rfl, rfl, rfl⟩

theorem marked (ch : Char) : Passes inTag depth ['\\', ch] depth := by
  intro cursor stands
  rw [stands.eq]
  exact ⟨_, ⟨rfl, rfl, rfl⟩, fun _ _ => rfl⟩

theorem plain {chars : List Char} (plain : ∀ ch ∈ chars, isDelimiter ch = false) :
    Passes inTag depth chars depth := by
  induction chars with
  | nil => exact .nil inTag depth
  | cons ch rest ih =>
    obtain ⟨first, others⟩ := List.forall_mem_cons.mp plain
    exact .cons (.other (.inl first)) (ih others)

/-- Within brackets the scan passes over a text up to where it closes what was opened before; so it
does in a tag, if no mark stands outside of brackets there. -/
theorem nested {opened : Nat} {chars : List Char} (closes : bracketsClose opened chars = true)
    (paired : endsUnpaired chars = false)
    (within : 0 < depth ∨ depth = 0 ∧ inTag = true ∧ marksEnclosed opened chars = true) :
    Passes inTag (depth + opened) chars depth := by
  induction opened, chars using bracketsClose.induct with
  | case1 opened =>
    rw [beq_iff_eq.mp closes, Nat.cast_zero, add_zero]
    exact .nil inTag depth
  | case2 opened ch rest ih =>
    exact (Passes.marked ch).append
      (ih closes ((endsUnpaired_marked ch rest).symm.trans paired) within)
  | case3 opened rest ih =>
    have inner := ih closes ((endsUnpaired_cons (by decide) rest).symm.trans paired) within
    rw [Nat.cast_succ, ← add_assoc] at inner
    refine .cons (.opening ?_) inner
    rcases within with within | ⟨_, inTag, _⟩
    · exact .inl (by omega)
    · exact .inr inTag
  | case4 rest => exact (Bool.false_ne_true closes).elim
  | case5 opened rest ih =>
    have inner := ih closes ((endsUnpaired_cons (by decide) rest).symm.trans paired) within
    refine .cons (.closing ?_) ?_
    · rcases within with within | ⟨_, inTag, _⟩
      · exact .inl (by omega)
      · exact .inr inTag
    · rwa [Nat.cast_succ, ← add_assoc, add_sub_cancel_right]
  | case6 opened ch rest noMarker noOpening noStray noClosing ih =>
    -- A backslash gets here at the end of the text only, where it would have no partner.
    have slash : ch ≠ '\\' := by
      rintro rfl
      cases rest with
      | nil => contradiction
      | cons next rest => exact noMarker next rest rfl rfl
    have closing : ch ≠ ']' := by
      rintro rfl
      cases opened with
      | zero => exact noStray rfl rfl
      | succ opened => exact noClosing opened rfl rfl
    have opening : ch ≠ '[' := noOpening
    rw [bracketsClose.eq_6 _ _ _ noMarker noOpening noStray noClosing] at closes
    refine .cons (.other ?_)
      (ih closes ((endsUnpaired_cons slash rest).symm.trans paired) ?_)
    · by_cases mark : ch = '#'
      · refine .inr ⟨mark, ?_⟩
        rcases within with within | ⟨level, _, marks⟩
        · omega
        · have enclosed := (marksEnclosed_of_cons slash opening closing marks).1 mark
          omega
      · simp only [isDelimiter, slash, mark, opening, closing, beq_false_of_ne, Bool.or_self, ne_eq,
          not_false_eq_true, true_or]
    · exact within.imp_right fun ⟨level, inTag, marks⟩ =>
        ⟨level, inTag, (marksEnclosed_of_cons slash opening closing marks).2⟩

end Passes

/-- A body that an action can have between its brackets: it says something, its own brackets close,
and its end leaves the bracket after it alone. -/
structure Enclosable (body : String) : Prop where
  nonempty : body ≠ ""
  closes : bracketsClose 0 body.toList = true
  paired : endsUnpaired body.toList = false

/-- A text without any delimiter, which is read as it stands wherever it stands. -/
def Undelimited (text : String) : Prop :=
  ∀ ch ∈ text.toList, isDelimiter ch = false

theorem passes_body {body : String} (enclosable : Enclosable body) (inTag : Bool) :
    Passes inTag 1 body.toList 1 :=
  Passes.nested enclosable.closes enclosable.paired (.inl one_pos)

/-- The action of a body. -/
def Segment.action (body : String) : Segment :=
  ⟨.action, body⟩

theorem Segment.toList_source_action (body : String) :
    (action body).source.toList = '[' :: (body.toList ++ [']']) := by
  simp only [action, source, SegmentKind.enclose, String.toList_append]
  rfl

theorem Segment.toList_source_tag (raw : String) :
    (source ⟨.tag, raw⟩).toList = '#' :: (raw.toList ++ ['#']) := by
  simp only [source, SegmentKind.enclose, String.toList_append]
  rfl

/-- The rule that is made of some segments. -/
def Segment.rule (segments : List Segment) : String :=
  String.join (segments.map source)

theorem Segment.toList_rule_cons (segment : Segment) (rest : List Segment) :
    (rule (segment :: rest)).toList = segment.source.toList ++ (rule rest).toList := by
  rw [rule, List.map_cons, String.join_cons, String.toList_append]
  rfl

/-- A tag does not look into the actions of its head. -/
theorem passes_actions {bodies : List String} (enclosable : ∀ body ∈ bodies, Enclosable body) :
    Passes true 0 (Segment.rule (bodies.map .action)).toList 0 := by
  induction bodies with
  | nil => exact .nil true 0
  | cons body rest ih =>
    obtain ⟨first, others⟩ := List.forall_mem_cons.mp enclosable
    rw [List.map_cons, Segment.toList_rule_cons, Segment.toList_source_action]
    exact (Passes.cons (.opening (.inr rfl))
      ((passes_body first true).append (.closing (.inr rfl)))).append (ih others)

/-- What is cut off at the end of a text is the text. -/
theorem Scanned.cut_text {raw : String} (nonempty : raw ≠ "") (kind : SegmentKind) (position : Nat)
    (rest : Scanned) :
    cut kind raw.toList.reverse position rest = followedBy ⟨[⟨kind, raw⟩], []⟩ rest := by
  have some : raw.toList.reverse ≠ [] :=
    List.reverse_ne_nil_iff.mpr fun none => nonempty (String.toList_eq_nil_iff.mp none)
  obtain ⟨ch, others, split⟩ := List.exists_cons_of_ne_nil some
  have whole : String.ofList (ch :: others).reverse = raw := by
    rw [← split, List.reverse_reverse, String.ofList_toList]
  rw [split, cut, whole]
  rfl

/-- The scan reads a segment back from its source. -/
def Segment.ReadBack (segment : Segment) : Prop :=
  ∀ cursor : Cursor, cursor.At 0 false → ∃ next : Cursor, next.At 0 false ∧
    ∀ more, cursor.scan [] (segment.source.toList ++ more) =
      Scanned.followedBy ⟨[segment], []⟩ (next.scan [] more)

/-- A segment is read back if the scan passes over its text between its delimiters. -/
theorem readBack_of_passes {segment : Segment} {opening closing : Char} {depth : Int} {inTag : Bool}
    (source : segment.source.toList = opening :: (segment.raw.toList ++ [closing]))
    (nonempty : segment.raw ≠ "")
    (opens : ∀ cursor : Cursor, cursor.At 0 false →
      cursor.boundary? opening = some .plain ∧ (cursor.step opening).At depth inTag)
    (passes : Passes inTag depth segment.raw.toList depth)
    (closes : ∀ cursor : Cursor, cursor.At depth inTag →
      cursor.boundary? closing = some segment.kind ∧ (cursor.step closing).At 0 false) :
    segment.ReadBack := by
  intro cursor stands
  obtain ⟨begins, within⟩ := opens cursor stands
  obtain ⟨inside, within, reads⟩ := passes _ within
  obtain ⟨ends, outside⟩ := closes inside within
  refine ⟨inside.step closing, outside, fun more => ?_⟩
  calc cursor.scan [] (segment.source.toList ++ more)
      = (cursor.step opening).scan [] (segment.raw.toList ++ closing :: more) := by
        rw [source, List.cons_append, List.append_assoc, Cursor.scan_boundary begins]
        rfl
    _ = inside.scan segment.raw.toList.reverse (closing :: more) := by
        rw [reads, List.append_nil]
    _ = _ := by
        rw [Cursor.scan_boundary ends, Scanned.cut_text nonempty]

theorem readBack_action {body : String} (nonempty : body ≠ "")
    (passes : Passes false 1 body.toList 1) : (Segment.action body).ReadBack :=
  readBack_of_passes (Segment.toList_source_action body) nonempty
    (fun _ stands => by rw [stands.eq]; exact ⟨rfl, rfl, rfl, rfl⟩)
    passes
    (fun _ stands => by rw [stands.eq]; exact ⟨rfl, rfl, rfl, rfl⟩)

theorem readBack_tag {raw : String} (nonempty : raw ≠ "") (passes : Passes true 0 raw.toList 0) :
    Segment.ReadBack ⟨.tag, raw⟩ :=
  readBack_of_passes (Segment.toList_source_tag raw) nonempty
    (fun _ stands => by rw [stands.eq]; exact ⟨rfl, rfl, rfl, rfl⟩)
    passes
    (fun _ stands => by rw [stands.eq]; exact ⟨rfl, rfl, rfl, rfl⟩)

/-- Actions whose bodies can be enclosed are read back. -/
theorem readBack_actions {bodies : List String} (enclosable : ∀ body ∈ bodies, Enclosable body) :
    ∀ segment ∈ bodies.map Segment.action, segment.ReadBack := by
  intro segment member
  obtain ⟨body, written, rfl⟩ := List.mem_map.mp member
  exact readBack_action (enclosable body written).nonempty
    (passes_body (enclosable body written) false)

/-- Segments that are read back one by one are read back one after the other. -/
theorem scan_rule {segments : List Segment} (readBack : ∀ segment ∈ segments, segment.ReadBack)
    {cursor : Cursor} (stands : cursor.At 0 false) :
    ∃ next : Cursor, next.At 0 false ∧ ∀ more,
      cursor.scan [] ((Segment.rule segments).toList ++ more) =
        Scanned.followedBy ⟨segments, []⟩ (next.scan [] more) := by
  induction segments generalizing cursor with
  | nil => exact ⟨cursor, stands, fun _ => rfl⟩
  | cons segment rest ih =>
    obtain ⟨first, others⟩ := List.forall_mem_cons.mp readBack
    obtain ⟨between, stands, reads⟩ := first cursor stands
    obtain ⟨next, stands, goesOn⟩ := ih others stands
    refine ⟨next, stands, fun more => ?_⟩
    rw [Segment.toList_rule_cons, List.append_assoc, reads, goesOn]
    rfl

theorem ofRule_rule {segments : List Segment}
    (readBack : ∀ segment ∈ segments, segment.ReadBack) :
    Scanned.ofRule (Segment.rule segments) = ⟨segments, []⟩ := by
  have start : ({} : Cursor).At 0 false := ⟨rfl, rfl, rfl⟩
  obtain ⟨next, stands, reads⟩ := scan_rule readBack start
  have whole := reads []
  rw [List.append_nil, stands.eq] at whole
  rw [Scanned.ofRule, whole]
  simp only [Scanned.followedBy, Cursor.scan, Scanned.cut, Cursor.leftOpen, List.append_nil]
  rfl

/-- A text without any delimiter may follow, and is plain text. -/
theorem ofRule_rule_append {segments : List Segment}
    (readBack : ∀ segment ∈ segments, segment.ReadBack) {text : String} (nonempty : text ≠ "")
    (undelimited : Undelimited text) :
    Scanned.ofRule (Segment.rule segments ++ text) = ⟨segments ++ [⟨.plain, text⟩], []⟩ := by
  have start : ({} : Cursor).At 0 false := ⟨rfl, rfl, rfl⟩
  obtain ⟨middle, stands, reads⟩ := scan_rule readBack start
  obtain ⟨last, stands, passes⟩ := Passes.plain undelimited middle stands
  have rest := passes [] []
  rw [List.append_nil, List.append_nil, stands.eq] at rest
  rw [Scanned.ofRule, String.toList_append, reads, rest, Cursor.scan, Scanned.cut_text nonempty]
  rfl

/-- The text between the marks of a tag that runs actions first. -/
def TagHead.written (bodies : List String) (main : String) : String :=
  Segment.rule (bodies.map .action) ++ main

/-- The actions of a head do not matter to its main section, and the other way round. -/
theorem parse_written {main : String} (nonempty : main ≠ "") (undelimited : Undelimited main) :
    ∃ symbol modifiers, ∀ bodies : List String, (∀ body ∈ bodies, Enclosable body) →
      TagHead.parse (TagHead.written bodies main) =
        .ok { symbol, modifiers, preactions := bodies } := by
  have scans (bodies : List String) (enclosable : ∀ body ∈ bodies, Enclosable body) :=
    ofRule_rule_append (readBack_actions enclosable) nonempty undelimited
  have plain (bodies : List String) :
      Scanned.plainTexts ⟨bodies.map Segment.action ++ [⟨.plain, main⟩], []⟩ = [main] := by
    simp [Scanned.plainTexts, Segment.action, List.filter_map, Function.comp_def]
  have enclosed (bodies : List String) :
      Scanned.enclosedTexts ⟨bodies.map Segment.action ++ [⟨.plain, main⟩], []⟩ = bodies := by
    simp [Scanned.enclosedTexts, Segment.action, List.filter_map, Function.comp_def]
  cases pieces : Text.split '.' main with
  | nil =>
    refine ⟨"", [], fun bodies enclosable => ?_⟩
    simp only [TagHead.parse, TagHead.written, scans bodies enclosable, plain, enclosed, pieces]
  | cons symbol modifiers =>
    refine ⟨symbol, modifiers, fun bodies enclosable => ?_⟩
    simp only [TagHead.parse, TagHead.written, scans bodies enclosable, plain, enclosed, pieces]

/-- A tag that runs actions first is read back. -/
theorem readBack_written {bodies : List String} (enclosable : ∀ body ∈ bodies, Enclosable body)
    {main : String} (nonempty : main ≠ "") (undelimited : Undelimited main) :
    Segment.ReadBack ⟨.tag, TagHead.written bodies main⟩ := by
  refine readBack_tag (fun empty => ?_) ?_
  · exact nonempty (String.append_eq_empty_iff.mp empty).2
  · rw [TagHead.written, String.toList_append]
    exact (passes_actions enclosable).append (.plain undelimited)

theorem Text.cut?_append {mark : Char} {front : String} (absent : mark ∉ front.toList)
    (back : String) :
    cut? mark (front ++ (String.singleton mark ++ back)) = some (front, back) := by
  have passes : ∀ ch ∈ front.toList, (! (ch == mark)) = true := by
    intro ch member
    rw [Bool.not_eq_true', beq_eq_false_iff_ne]
    rintro rfl
    exact absent member
  have whole : (front ++ (String.singleton mark ++ back)).toList =
      front.toList ++ mark :: back.toList := by
    simp
  rw [cut?, cutWhere?, whole, List.dropWhile_append_of_pos passes,
    List.takeWhile_append_of_pos passes]
  simp

theorem Text.notMem_of_cut? {mark : Char} {text front back : String}
    (cut : cut? mark text = some (front, back)) : mark ∉ front.toList := by
  simp only [cut?, cutWhere?] at cut
  split at cut
  · contradiction
  · cases cut
    intro member
    rw [String.toList_ofList] at member
    have passed := List.mem_takeWhile_imp member
    rw [Bool.not_eq_true', beq_self_eq_true] at passed
    contradiction

/-- A text is what stands before a mark, the mark, and what stands behind it. -/
theorem Text.eq_of_cut? {mark : Char} {text front back : String}
    (cut : cut? mark text = some (front, back)) :
    text = front ++ String.singleton mark ++ back := by
  simp only [cut?, cutWhere?] at cut
  split at cut
  · contradiction
  · next ch rest dropped =>
    cases cut
    have here : ch = mark := by
      have stops := List.head_dropWhile_not (fun ch => ! (ch == mark)) (l := text.toList)
        (by rw [dropped]; exact List.cons_ne_nil _ _)
      simpa [dropped] using stops
    have whole := List.takeWhile_append_dropWhile (p := fun ch => ! (ch == mark)) (l := text.toList)
    rw [dropped, here] at whole
    rw [← String.toList_inj]
    simp [whole]

/-- The symbol that an action pushes onto. -/
def Action.pushed? : Action → Option String
  | .push target _ => some target
  | _ => none

/-- Only the first colon separates, so a target has none. -/
theorem colon_notMem_of_pushed {body target : String}
    (pushed : (Action.parse body).pushed? = some target) : ':' ∉ target.toList := by
  simp only [Action.parse] at pushed
  cases cut : Text.cut? ':' body with
  | none => simp only [cut, Action.pushed?, reduceCtorEq] at pushed
  | some parts =>
    simp only [cut] at pushed
    split_ifs at pushed with pops
    · contradiction
    · cases pushed
      exact Text.notMem_of_cut? cut

theorem parse_text_pop {target : String} (absent : ':' ∉ target.toList) :
    Action.parse (Action.pop target).text = .pop target := by
  have cut : Text.cut? ':' (target ++ ":POP") = some (target, "POP") :=
    Text.cut?_append absent "POP"
  simp only [Action.parse, Action.text, cut, ↓reduceIte]

end TextGrammar
