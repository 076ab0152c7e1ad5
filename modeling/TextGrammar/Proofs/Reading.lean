import TextGrammar.Proofs.Brackets

/-! # What a scan has read

A scan goes through a rule from left to right: at every point some segments are finished, one is
open, and the cursor knows which delimiter opened it. What was read so far is made of these, so the
sources of all segments give back the rule, up to a delimiter that nothing closed. The empty tags
and actions among them are the ones that are reported, each where its text would stand.
-/

namespace TextGrammar

/-- A scan under way: where it stands, what is finished, and the characters of the open segment,
last first. -/
structure Reading where
  cursor : Cursor := {}
  done : Scanned := {}
  opened : List Char := []

namespace Reading

/-- Read one more character. -/
def step (reading : Reading) (ch : Char) : Reading :=
  match reading.cursor.boundary? ch with
  | some kind => ⟨reading.cursor.step ch, reading.done.followedBy
      (.cut kind reading.opened reading.cursor.position {}), []⟩
  | none => ⟨reading.cursor.step ch, reading.done, ch :: reading.opened⟩

/-- What the scan yields if the rule ends here. -/
def finish (reading : Reading) : Scanned :=
  reading.done.followedBy
    (.cut .plain reading.opened reading.cursor.position ⟨[], reading.cursor.leftOpen⟩)

/-- What is done when a rule was read up to here. -/
def upTo (chars : List Char) : Reading :=
  chars.foldl step {}

theorem upTo_concat (chars : List Char) (ch : Char) :
    upTo (chars ++ [ch]) = (upTo chars).step ch :=
  List.foldl_append ..

variable {reading : Reading} {ch : Char}

theorem step_boundary {kind : SegmentKind} (ends : reading.cursor.boundary? ch = some kind) :
    reading.step ch = ⟨reading.cursor.step ch, reading.done.followedBy
      (.cut kind reading.opened reading.cursor.position {}), []⟩ := by
  simp only [step, ends]

theorem step_within (within : reading.cursor.boundary? ch = none) :
    reading.step ch = ⟨reading.cursor.step ch, reading.done, ch :: reading.opened⟩ := by
  simp only [step, within]

/-- A scan goes on from where it stands. -/
theorem scan_eq_finish (reading : Reading) (chars : List Char) :
    reading.done.followedBy (reading.cursor.scan reading.opened chars) =
      (chars.foldl step reading).finish := by
  induction chars generalizing reading with
  | nil => rfl
  | cons ch rest ih =>
    rw [List.foldl_cons, ← ih]
    cases ends : reading.cursor.boundary? ch with
    | some kind =>
      have cut := Scanned.cut_followedBy kind reading.opened reading.cursor.position {}
        ((reading.cursor.step ch).scan [] rest)
      rw [Cursor.scan_boundary ends, step_boundary ends]
      simp only [Scanned.followedBy, List.nil_append] at cut ⊢
      rw [cut]
      simp only [List.append_assoc]
    | none => rw [Cursor.scan_within ends, step_within ends]

theorem ofRule_eq_finish (rule : String) : Scanned.ofRule rule = (upTo rule.toList).finish :=
  scan_eq_finish {} rule.toList

end Reading

/-- The ways in which a character ends a segment, with where the cursor stands before and after. -/
inductive Cursor.Ends (cursor : Cursor) : Char → SegmentKind → Prop
  | actionOpens (before : cursor.At 0 false) (after : (cursor.step '[').At 1 false) :
      cursor.Ends '[' .plain
  | actionCloses (before : cursor.At 1 false) (after : (cursor.step ']').At 0 false) :
      cursor.Ends ']' .action
  | tagOpens (before : cursor.At 0 false) (after : (cursor.step '#').At 0 true) :
      cursor.Ends '#' .plain
  | tagCloses (before : cursor.At 0 true) (after : (cursor.step '#').At 0 false) :
      cursor.Ends '#' .tag

/-- The delimiter in front of the open segment; plain text has none. -/
def Cursor.opener (cursor : Cursor) : List Char :=
  if cursor.inTag then ['#'] else if 0 < cursor.depth then ['['] else []

namespace Cursor

variable {cursor : Cursor} {ch : Char}

theorem ends_of_boundary {kind : SegmentKind} (ends : cursor.boundary? ch = some kind) :
    cursor.Ends ch kind := by
  have stands {depth : Int} {inTag : Bool} (level : cursor.depth = depth)
      (tag : cursor.inTag = inTag) (escaped : ¬ cursor.escaped = true) : cursor.At depth inTag :=
    ⟨level, tag, Bool.eq_false_iff.mpr escaped⟩
  simp only [boundary?] at ends
  split_ifs at ends with escaped opens outside closes within mark tag <;> cases ends
  · have before := stands outside.1 outside.2 escaped
    subst opens
    exact .actionOpens before (before.eq ▸ ⟨rfl, rfl, rfl⟩)
  · have before := stands within.1 within.2 escaped
    subst closes
    exact .actionCloses before (before.eq ▸ ⟨rfl, rfl, rfl⟩)
  · obtain ⟨rfl, level⟩ := mark
    have before := stands level tag escaped
    exact .tagCloses before (before.eq ▸ ⟨rfl, rfl, rfl⟩)
  · obtain ⟨rfl, level⟩ := mark
    have before := stands level (Bool.eq_false_iff.mpr tag) escaped
    exact .tagOpens before (before.eq ▸ ⟨rfl, rfl, rfl⟩)

theorem At.opener {depth : Int} {inTag : Bool} (stands : cursor.At depth inTag) :
    cursor.opener = if inTag then ['#'] else if 0 < depth then ['['] else [] := by
  rw [stands.eq]
  rfl

/-- Within a segment its delimiter stays. -/
theorem opener_of_within (within : cursor.boundary? ch = none) :
    (cursor.step ch).opener = cursor.opener := by
  simp only [boundary?, step, Cursor.opener] at within ⊢
  split_ifs at within ⊢ <;> grind

/-- Where a segment ends, its delimiters are complete, and the next one has its own. -/
theorem opener_of_boundary {kind : SegmentKind} (ends : cursor.boundary? ch = some kind)
    (raw : String) :
    cursor.opener ++ raw.toList ++ [ch] =
      (kind.enclose raw).toList ++ (cursor.step ch).opener := by
  cases ends_of_boundary ends with
  | actionOpens before after | actionCloses before after | tagOpens before after
  | tagCloses before after =>
    rw [before.opener, after.opener]
    simp [SegmentKind.enclose]

/-- A tag and an action have one byte in front of their text. -/
theorem opener_size {kind : SegmentKind} (ends : cursor.boundary? ch = some kind)
    (enclosed : kind ≠ .plain) : (String.ofList cursor.opener).utf8ByteSize = 1 := by
  cases ends_of_boundary ends with
  | actionOpens | tagOpens => contradiction
  | actionCloses before | tagCloses before =>
    rw [before.opener]
    rfl

end Cursor

/-- The problem of a tag or an action without text, whose text would stand at a position. -/
def Segment.absence? (position : Nat) (segment : Segment) : Option Problem :=
  match segment.kind with
  | .plain => none
  | .tag => if segment.raw = "" then some (.emptyTag position) else none
  | .action => if segment.raw = "" then some (.emptyAction position) else none

/-- The problems of the empty tags and actions among segments that begin at a position. The text of
each would stand behind its first delimiter, which is one byte. -/
def Segment.absences : Nat → List Segment → List Problem
  | _, [] => []
  | position, segment :: rest =>
    (segment.absence? (position + 1)).toList ++
      absences (position + segment.source.utf8ByteSize) rest

/-- Whether a problem reports an empty tag or action. -/
def Problem.isAbsence : Problem → Bool
  | .emptyTag _ | .emptyAction _ => true
  | _ => false

namespace Segment

theorem rule_cons (segment : Segment) (rest : List Segment) :
    rule (segment :: rest) = segment.source ++ rule rest :=
  String.join_cons

theorem rule_append (first second : List Segment) :
    rule (first ++ second) = rule first ++ rule second := by
  rw [rule, List.map_append, String.join_append]
  rfl

theorem rule_plainOf (chars : List Char) : rule (plainOf chars) = .ofList chars := by
  cases chars with
  | nil => rfl
  | cons ch rest => rfl

theorem absences_append (position : Nat) (first second : List Segment) :
    absences position (first ++ second) =
      absences position first ++ absences (position + (rule first).utf8ByteSize) second := by
  induction first generalizing position with
  | nil => rfl
  | cons segment rest ih =>
    simp only [List.cons_append, absences, ih, List.append_assoc]
    rw [rule_cons, String.utf8ByteSize_append, Nat.add_assoc]

theorem absences_plainOf (position : Nat) (chars : List Char) :
    absences position (plainOf chars) = [] := by
  cases chars <;> rfl

theorem eq_of_mem_plainOf {chars : List Char} {segment : Segment}
    (member : segment ∈ plainOf chars) : chars ≠ [] ∧ segment = ⟨.plain, .ofList chars⟩ := by
  cases chars with
  | nil => contradiction
  | cons ch rest => exact ⟨List.cons_ne_nil ch rest, List.mem_singleton.mp member⟩

theorem nonempty_of_mem_plainOf {chars : List Char} {segment : Segment}
    (member : segment ∈ plainOf chars) : segment.raw ≠ "" := by
  obtain ⟨some, rfl⟩ := eq_of_mem_plainOf member
  exact String.ofList_eq_empty_iff.not.mpr some

theorem isAbsence_of_mem {position : Nat} {segments : List Segment} {problem : Problem}
    (member : problem ∈ absences position segments) : problem.isAbsence = true := by
  induction segments generalizing position with
  | nil => contradiction
  | cons segment rest ih =>
    rcases List.mem_append.mp member with here | later
    · rw [Option.mem_toList, absence?] at here
      split at here
      · contradiction
      all_goals
        split_ifs at here
        cases here
        rfl
    · exact ih later

end Segment

theorem text_ne_empty (ch : Char) (rest : List Char) :
    String.ofList (ch :: rest).reverse ≠ "" :=
  String.ofList_eq_empty_iff.not.mpr (List.reverse_ne_nil_iff.mpr (List.cons_ne_nil ch rest))

namespace Scanned

/-- A segment that is cut off holds what was open. -/
theorem rule_cut (kind : SegmentKind) (reversed : List Char) (position : Nat) :
    Segment.rule (cut kind reversed position {}).segments =
      kind.enclose (.ofList reversed.reverse) := by
  cases reversed <;> cases kind <;> rfl

theorem cut_plain (reversed : List Char) (position : Nat) (rest : Scanned) :
    cut .plain reversed position rest =
      ⟨Segment.plainOf reversed.reverse ++ rest.segments, rest.problems⟩ := by
  rw [← segments_cut_plain reversed position rest]
  cases reversed <;> rfl

theorem eq_of_mem_cut {kind : SegmentKind} {reversed : List Char} {position : Nat}
    {segment : Segment} (member : segment ∈ (cut kind reversed position {}).segments) :
    segment = ⟨kind, .ofList reversed.reverse⟩ := by
  cases reversed with
  | nil => cases kind <;> first | contradiction | exact List.mem_singleton.mp member
  | cons ch rest => exact List.mem_singleton.mp member

/-- Text that is cut off is not empty. -/
theorem plain_cut {kind : SegmentKind} {reversed : List Char} {position : Nat} :
    ∀ segment ∈ (cut kind reversed position {}).segments,
      segment.kind = .plain → segment.raw ≠ "" := by
  intro segment member plain
  cases reversed with
  | nil => cases kind <;> cases member <;> contradiction
  | cons ch rest =>
    cases List.mem_singleton.mp member
    exact text_ne_empty ch rest

/-- A segment that is cut off is reported if it lacks text. -/
theorem problems_cut_eq {kind : SegmentKind} {reversed : List Char} {position start : Nat}
    (stands : reversed = [] → kind ≠ .plain → position = start + 1) :
    (cut kind reversed position {}).problems =
      Segment.absences start (cut kind reversed position {}).segments := by
  cases reversed with
  | nil =>
    cases kind with
    | plain => rfl
    | tag | action => rw [stands rfl SegmentKind.noConfusion]; rfl
  | cons ch rest =>
    have text := text_ne_empty ch rest
    cases kind <;> simp only [cut, Segment.absences, Segment.absence?, text, ↓reduceIte] <;> rfl

end Scanned

theorem Cursor.position_step (cursor : Cursor) (ch : Char) :
    (cursor.step ch).position = cursor.position + ch.utf8Size := by
  simp only [step]
  split_ifs <;> rfl

/-- What was read is made of the segments that are finished, of which plain text is never empty, and
of the open one; the cursor counts its bytes, and what is empty was reported. -/
structure Reading.Accounts (reading : Reading) (read : List Char) : Prop where
  text : read = (Segment.rule reading.done.segments).toList ++ reading.cursor.opener ++
    reading.opened.reverse
  position : reading.cursor.position = (String.ofList read).utf8ByteSize
  problems : reading.done.problems = Segment.absences 0 reading.done.segments
  plain : ∀ segment ∈ reading.done.segments, segment.kind = .plain → segment.raw ≠ ""

namespace Reading

theorem accounts_step {reading : Reading} {read : List Char} (accounts : reading.Accounts read)
    (ch : Char) : (reading.step ch).Accounts (read ++ [ch]) := by
  have position : (reading.cursor.step ch).position =
      (String.ofList (read ++ [ch])).utf8ByteSize := by
    simp only [Cursor.position_step, accounts.position, String.utf8ByteSize_ofList,
      String.utf8Len_append, String.utf8Len_cons, String.utf8Len_nil, Nat.zero_add]
  cases ends : reading.cursor.boundary? ch with
  | none =>
    rw [step_within ends]
    refine ⟨?_, position, accounts.problems, accounts.plain⟩
    rw [Cursor.opener_of_within ends, List.reverse_cons, ← List.append_assoc, ← accounts.text]
  | some kind =>
    rw [step_boundary ends]
    refine ⟨?_, position, ?_, ?_⟩
    · have whole := Cursor.opener_of_boundary ends (.ofList reading.opened.reverse)
      rw [String.toList_ofList] at whole
      simp only [Scanned.followedBy, Segment.rule_append, String.toList_append, Scanned.rule_cut,
        List.reverse_nil, List.append_nil]
      rw [List.append_assoc, ← whole, ← List.append_assoc, ← List.append_assoc, ← accounts.text]
    · -- What is cut off without text has only its delimiter behind what is finished.
      have stands : reading.opened = [] → kind ≠ .plain → reading.cursor.position =
          0 + (Segment.rule reading.done.segments).utf8ByteSize + 1 := by
        intro empty enclosed
        rw [accounts.position, accounts.text, empty, List.reverse_nil, List.append_nil,
          String.ofList_append, String.ofList_toList, String.utf8ByteSize_append,
          Cursor.opener_size ends enclosed, Nat.zero_add]
      simp only [Scanned.followedBy, Segment.absences_append, accounts.problems,
        Scanned.problems_cut_eq stands]
    · exact List.forall_mem_append.mpr ⟨accounts.plain, Scanned.plain_cut⟩

theorem accounts_upTo (read : List Char) : (upTo read).Accounts read := by
  induction read using List.reverseRecOn with
  | nil => exact ⟨rfl, rfl, rfl, List.forall_mem_nil _⟩
  | append_singleton read ch ih =>
    rw [upTo_concat]
    exact accounts_step ih ch

theorem segments_finish (reading : Reading) : reading.finish.segments =
    reading.done.segments ++ Segment.plainOf reading.opened.reverse := by
  simp only [finish, Scanned.followedBy, Scanned.cut_plain, List.append_nil]

theorem problems_finish (reading : Reading) :
    reading.finish.problems = reading.done.problems ++ reading.cursor.leftOpen := by
  simp only [finish, Scanned.followedBy, Scanned.cut_plain]

end Reading

namespace Cursor

variable (cursor : Cursor)

theorem isAbsence_leftOpen : ∀ problem ∈ cursor.leftOpen, problem.isAbsence = false := by
  intro problem member
  simp only [leftOpen, List.mem_append, List.mem_ite_nil_right, List.mem_singleton] at member
  rcases member with (⟨_, rfl⟩ | ⟨_, rfl⟩) | ⟨_, rfl⟩ <;> rfl

theorem unclosedTag_mem_leftOpen : .unclosedTag ∈ cursor.leftOpen ↔ cursor.inTag = true := by
  simp [leftOpen]

theorem unclosedBracket_mem_leftOpen : .unclosedBracket ∈ cursor.leftOpen ↔ 0 < cursor.depth := by
  simp [leftOpen]

end Cursor

/-- The problems of a rule: the empty tags and actions in it, and then what it leaves open. -/
theorem problems_ofRule (rule : String) : (Scanned.ofRule rule).problems =
    Segment.absences 0 (Scanned.ofRule rule).segments ++
      (Reading.upTo rule.toList).cursor.leftOpen := by
  rw [Reading.ofRule_eq_finish, Reading.problems_finish, Reading.segments_finish,
    (Reading.accounts_upTo rule.toList).problems, Segment.absences_append,
    Segment.absences_plainOf, List.append_nil]

/-- Only what a rule leaves open is told that is neither an empty tag nor an empty action. -/
theorem mem_problems_ofRule {rule : String} {problem : Problem}
    (other : problem.isAbsence = false) :
    problem ∈ (Scanned.ofRule rule).problems ↔
      problem ∈ (Reading.upTo rule.toList).cursor.leftOpen := by
  rw [problems_ofRule, List.mem_append, or_iff_right]
  intro member
  exact Bool.false_ne_true (other.symm.trans (Segment.isAbsence_of_mem member))

/-- The empty tags and actions are reported, each where its text would stand. -/
theorem absences_ofRule (rule : String) :
    (Scanned.ofRule rule).problems.filter Problem.isAbsence =
      Segment.absences 0 (Scanned.ofRule rule).segments := by
  have reported : ∀ problem ∈ Segment.absences 0 (Scanned.ofRule rule).segments,
      problem.isAbsence = true := fun _ => Segment.isAbsence_of_mem
  rw [problems_ofRule, List.filter_append, List.filter_eq_self.mpr reported,
    List.filter_eq_nil_iff.mpr, List.append_nil]
  intro problem member
  rw [Cursor.isAbsence_leftOpen _ problem member]
  exact Bool.false_ne_true

theorem nonempty_of_plain {rule : String} :
    ∀ segment ∈ (Scanned.ofRule rule).segments, segment.kind = .plain → segment.raw ≠ "" := by
  rw [Reading.ofRule_eq_finish, Reading.segments_finish]
  exact List.forall_mem_append.mpr ⟨(Reading.accounts_upTo rule.toList).plain,
    fun segment member _ => Segment.nonempty_of_mem_plainOf member⟩

/-- A scan loses nothing: the sources of the segments are the rule again, but for the delimiter of a
tag or an action that the rule leaves open, which stands in front of the text at its end. No plain
text is empty, and the empty tags and actions are reported in order, each at the place where its
text would stand. -/
theorem ofRule_loses_nothing (rule : String) :
    let scanned := Scanned.ofRule rule
    let unfinished := .unclosedTag ∈ scanned.problems ∨ .unclosedBracket ∈ scanned.problems
    (¬ unfinished → Segment.rule scanned.segments = rule) ∧
      (unfinished → ∃ front tail, scanned.segments = front ++ Segment.plainOf tail ∧
        rule = Segment.rule front ++
          (if .unclosedTag ∈ scanned.problems then "#" else "[") ++ .ofList tail) ∧
      (∀ segment ∈ scanned.segments, segment.kind = .plain → segment.raw ≠ "") ∧
      scanned.problems.filter Problem.isAbsence = Segment.absences 0 scanned.segments := by
  intro scanned unfinished
  have accounts := Reading.accounts_upTo rule.toList
  have segments : scanned.segments = _ :=
    (congrArg Scanned.segments (Reading.ofRule_eq_finish rule)).trans (Reading.segments_finish _)
  have tag : .unclosedTag ∈ scanned.problems ↔ _ :=
    (mem_problems_ofRule rfl).trans (Cursor.unclosedTag_mem_leftOpen _)
  have bracket : .unclosedBracket ∈ scanned.problems ↔ _ :=
    (mem_problems_ofRule rfl).trans (Cursor.unclosedBracket_mem_leftOpen _)
  have whole := congrArg String.ofList accounts.text
  simp only [String.ofList_toList, String.ofList_append, Cursor.opener, ← tag, ← bracket] at whole
  refine ⟨fun finished => ?_, fun leftOpen => ⟨_, _, segments, ?_⟩, nonempty_of_plain,
    absences_ofRule rule⟩
  · obtain ⟨noTag, noBracket⟩ := not_or.mp finished
    rw [if_neg noTag, if_neg noBracket, String.ofList_nil, String.append_empty] at whole
    rw [segments, Segment.rule_append, Segment.rule_plainOf, ← whole]
  · refine whole.trans (congrArg (Segment.rule _ ++ · ++ _) ?_)
    split_ifs with inTag within
    · rfl
    · rfl
    · exact (leftOpen.elim inTag within).elim

/-- Text of two bytes, an empty tag and an empty action, and then a tag that is left open with an
open bracket in it. -/
theorem ofRule_loses_nothing_openTag :
    let scanned := Scanned.ofRule "é##[]d#e[f"
    .unclosedTag ∈ scanned.problems ∧
      (∃ front tail, scanned.segments = front ++ Segment.plainOf tail ∧
        "é##[]d#e[f" = Segment.rule front ++
          (if .unclosedTag ∈ scanned.problems then "#" else "[") ++ .ofList tail) ∧
      Segment.absences 0 scanned.segments = [.emptyTag 3, .emptyAction 5] := by
  intro scanned
  have problems : scanned.problems =
      [.emptyTag 3, .emptyAction 5, .unclosedTag, .unclosedBracket] := by
    simp only [scanned]
    cbv
  have told : .unclosedTag ∈ scanned.problems := by
    rw [problems]
    decide
  obtain ⟨_, leftOpen, _, reported⟩ := ofRule_loses_nothing "é##[]d#e[f"
  refine ⟨told, leftOpen (.inl told), reported.symm.trans ?_⟩
  change scanned.problems.filter Problem.isAbsence = _
  rw [problems]
  rfl

end TextGrammar
