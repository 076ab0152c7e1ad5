import TextGrammar.Proofs.Literal

/-! # Placeholders are plain text

A placeholder shows a name that could not be resolved, and it is expanded like a rule. The name of a
tag was cut out of the text between two marks, outside of all brackets that this text opens. A scan
that starts on the placeholder finds no delimiter in it that counts, so a placeholder is plain text.
-/

namespace TextGrammar

namespace Cursor

/-- No character of a text ends a segment for a scan that starts at the cursor. -/
def Unbroken (cursor : Cursor) : List Char → Prop
  | [] => True
  | ch :: rest => cursor.boundary? ch = none ∧ (cursor.step ch).Unbroken rest

/-- A scan goes from one cursor to another, whatever the position, and no segment ends. -/
def Reaches (start : Cursor) (chars : List Char) (stop : Cursor) : Prop :=
  start.Unbroken chars ∧ ∃ position, stop = { start.after chars with position }

variable {start stop cursor : Cursor} {chars rest : List Char} {ch : Char}

theorem unbroken_append : cursor.Unbroken (chars ++ rest) ↔
    cursor.Unbroken chars ∧ (cursor.after chars).Unbroken rest := by
  induction chars generalizing cursor with
  | nil => exact (iff_of_eq (true_and _)).symm
  | cons ch chars ih =>
    simp only [List.cons_append, Unbroken, ih, and_assoc]
    rfl

/-- The position is not read. -/
theorem unbroken_at (cursor : Cursor) (position : Nat) (chars : List Char) :
    { cursor with position }.Unbroken chars ↔ cursor.Unbroken chars := by
  induction chars generalizing cursor position with
  | nil => exact Iff.rfl
  | cons ch rest ih =>
    have same : { cursor with position }.boundary? ch = cursor.boundary? ch := rfl
    rw [Unbroken, Unbroken, same, step_at]
    exact and_congr_right fun _ => ih (cursor.step ch) _

theorem Reaches.nil (cursor : Cursor) (position : Nat) :
    cursor.Reaches [] { cursor with position } :=
  ⟨trivial, position, rfl⟩

theorem Reaches.concat (reaches : start.Reaches chars stop) (within : stop.boundary? ch = none) :
    start.Reaches (chars ++ [ch]) (stop.step ch) := by
  obtain ⟨unbroken, position, rfl⟩ := reaches
  refine ⟨unbroken_append.mpr ⟨unbroken, within, trivial⟩, position + ch.utf8Size, ?_⟩
  rw [step_at, after, after, List.foldl_append]
  rfl

/-- A text in which no segment ends is the rest of the segment that was open. -/
theorem segments_of_unbroken (unbroken : cursor.Unbroken chars) (reversed : List Char) :
    (cursor.scan reversed chars).segments = Segment.plainOf (reversed.reverse ++ chars) := by
  induction chars generalizing cursor reversed with
  | nil => rw [scan, Scanned.segments_cut_plain, List.append_nil, List.append_nil]
  | cons ch rest ih =>
    rw [scan_within unbroken.1, ih unbroken.2, List.reverse_cons, List.append_assoc,
      List.singleton_append]

/-- Within a segment a tag neither begins nor ends. -/
theorem inTag_of_within (within : cursor.boundary? ch = none) :
    (cursor.step ch).inTag = cursor.inTag := by
  simp only [boundary?, step] at within ⊢
  split_ifs at within ⊢ <;> simp_all

theorem Ends.before_tag (ends : cursor.Ends ch .tag) : cursor.At 0 true := by
  cases ends with
  | tagCloses before => exact before

/-- Between the marks of a tag, a scan that does not know of the tag never enters one. -/
theorem after_untagged (unbroken : cursor.Unbroken chars) (tag : cursor.inTag = true) :
    { cursor with inTag := false }.after chars = { cursor.after chars with inTag := false } := by
  induction chars generalizing cursor with
  | nil => rfl
  | cons ch rest ih =>
    obtain ⟨within, unbroken⟩ := unbroken
    have noMark : cursor.escaped = true ∨ ¬ (ch = '#' ∧ cursor.depth = 0) := by
      by_contra mark
      simp only [not_or, not_not] at mark
      obtain ⟨unescaped, rfl, level⟩ := mark
      simp [boundary?, unescaped, level] at within
    have stays := (inTag_of_within within).trans tag
    have steps : { cursor with inTag := false }.step ch =
        { cursor.step ch with inTag := false } := by
      simp only [step]
      split_ifs <;> simp_all
    have goesOn := ih unbroken stays
    simp only [after, List.foldl_cons, steps] at goesOn ⊢
    exact goesOn

end Cursor

/-- Where a scan stands at the text of a tag. -/
def Cursor.tagged : Cursor :=
  { inTag := true }

/-- What a scan knows of the texts it has read: no mark ended the text of a tag earlier, and no
delimiter that counts is in plain text. -/
structure Reading.Cuts (reading : Reading) : Prop where
  tags : ∀ segment ∈ reading.done.segments, segment.kind = .tag →
    ∃ stop : Cursor, Cursor.tagged.Reaches segment.raw.toList stop ∧ stop.At 0 true
  plains : ∀ segment ∈ reading.done.segments, segment.kind = .plain →
    Cursor.Unbroken {} segment.raw.toList
  within : reading.cursor.inTag = true →
    Cursor.tagged.Reaches reading.opened.reverse reading.cursor
  outside : reading.cursor.inTag = false → reading.cursor.depth ≤ 0 →
    Cursor.Reaches {} reading.opened.reverse reading.cursor

namespace Reading

theorem cuts_step {reading : Reading} (cuts : reading.Cuts) (ch : Char) :
    (reading.step ch).Cuts := by
  cases ends : reading.cursor.boundary? ch with
  | none =>
    rw [step_within ends]
    refine ⟨cuts.tags, cuts.plains, fun tag => ?_, fun noTag outside => ?_⟩
    · rw [List.reverse_cons]
      exact (cuts.within (Cursor.inTag_of_within ends ▸ tag)).concat ends
    · obtain ⟨noTag, outside⟩ := Cursor.outside_of_step ends noTag outside
      rw [List.reverse_cons]
      exact (cuts.outside noTag outside).concat ends
  | some kind =>
    have piece := Cursor.ends_of_boundary ends
    rw [step_boundary ends]
    refine ⟨List.forall_mem_append.mpr ⟨cuts.tags, fun segment member tag => ?_⟩,
      List.forall_mem_append.mpr ⟨cuts.plains, fun segment member plain => ?_⟩,
      fun tag => ?_, fun noTag outside => ?_⟩
    · cases Scanned.eq_of_mem_cut member
      cases tag
      have before := piece.before_tag
      rw [String.toList_ofList]
      exact ⟨_, cuts.within before.inTag, before⟩
    · cases Scanned.eq_of_mem_cut member
      cases plain
      have before := piece.before
      rw [String.toList_ofList]
      exact (cuts.outside before.inTag (le_of_eq before.depth)).1
    · cases piece with
      | tagOpens _ after => exact after.eq ▸ .nil Cursor.tagged _
      | actionOpens _ after | actionCloses _ after | tagCloses _ after =>
        exact absurd (after.inTag.symm.trans tag) Bool.false_ne_true
    · exact (piece.after noTag outside).eq ▸ .nil {} _

theorem cuts_upTo (chars : List Char) : (upTo chars).Cuts := by
  induction chars using List.reverseRecOn with
  | nil =>
    exact ⟨List.forall_mem_nil _, List.forall_mem_nil _, nofun, fun _ _ => .nil _ 0⟩
  | append_singleton chars ch ih =>
    rw [upTo_concat]
    exact cuts_step ih ch

theorem cursor_upTo (chars : List Char) : (upTo chars).cursor = Cursor.after {} chars := by
  induction chars using List.reverseRecOn with
  | nil => rfl
  | append_singleton chars ch ih =>
    have steps (reading : Reading) : (reading.step ch).cursor = reading.cursor.step ch := by
      rw [step]
      split <;> rfl
    rw [upTo_concat, steps, ih, Cursor.after, Cursor.after, List.foldl_append]
    rfl

end Reading

/-- The first piece of a text stands at its beginning. -/
theorem Text.prefix_of_split {mark : Char} {text first : String} {rest : List String}
    (pieces : split mark text = first :: rest) : first.toList <+: text.toList := by
  obtain ⟨chars, others, splits, rfl, _⟩ := List.map_eq_cons_iff.mp pieces
  have whole : [mark].intercalate (text.toList.splitOn mark) = text.toList :=
    List.intercalate_splitOn mark
  rw [splits] at whole
  rw [String.toList_ofList, ← whole]
  cases others with
  | nil => simp
  | cons next others => exact ⟨mark :: [mark].intercalate (next :: others), by simp⟩

namespace TagHead

variable {raw : String} {head : TagHead}

/-- The actions of a tag head are what its scan finds besides plain text. -/
theorem preactions_of_parse (parsed : parse raw = .ok head) :
    head.preactions = (Scanned.ofRule raw).enclosedTexts := by
  simp only [parse] at parsed
  split at parsed
  · cases parsed
    rfl
  · split at parsed <;> cases parsed <;> rfl
  · contradiction

/-- The symbol of a tag stands at the beginning of a plain section of it, if it has one. -/
theorem symbol_of_parse (parsed : parse raw = .ok head) :
    head.symbol = "" ∨ ∃ main, ⟨.plain, main⟩ ∈ (Scanned.ofRule raw).segments ∧
      head.symbol.toList <+: main.toList := by
  have plain (main : String) (member : main ∈ (Scanned.ofRule raw).plainTexts) :
      ⟨.plain, main⟩ ∈ (Scanned.ofRule raw).segments := by
    obtain ⟨⟨kind, text⟩, kept, rfl⟩ := List.mem_map.mp member
    obtain ⟨member, plain⟩ := List.mem_filter.mp kept
    obtain rfl : kind = .plain := beq_iff_eq.mp plain
    exact member
  simp only [parse] at parsed
  split at parsed
  · cases parsed
    exact .inl rfl
  · next main plainTexts =>
    split at parsed
    · cases parsed
      exact .inl rfl
    · next symbol modifiers pieces =>
      cases parsed
      exact .inr ⟨main, plain main (by rw [plainTexts]; exact List.mem_singleton_self main),
        Text.prefix_of_split pieces⟩
  · contradiction

end TagHead

namespace Cursor

variable {raw : String} {stop : Cursor}

/-- No mark stands in the text of a tag where the tag would end. -/
theorem tagged_of_tag {rule : String} (member : ⟨.tag, raw⟩ ∈ (Scanned.ofRule rule).segments) :
    ∃ stop : Cursor, tagged.Reaches raw.toList stop ∧ stop.At 0 true := by
  rw [Reading.ofRule_eq_finish, Reading.segments_finish] at member
  rcases List.mem_append.mp member with finished | last
  · exact (Reading.cuts_upTo rule.toList).tags _ finished rfl
  · obtain ⟨_, same⟩ := Segment.eq_of_mem_plainOf last
    cases same

/-- The text of a tag, scanned by itself, leaves the scan where it began. -/
theorem untagged_of_tagged (reaches : tagged.Reaches raw.toList stop) (stands : stop.At 0 true) :
    (Reading.upTo raw.toList).cursor.At 0 false := by
  obtain ⟨unbroken, position, rfl⟩ := reaches
  have untagged := after_untagged unbroken rfl
  rw [Reading.cursor_upTo]
  exact untagged ▸ ⟨stands.depth, rfl, stands.escaped⟩

/-- No delimiter counts in the plain sections of a tag. -/
theorem unbroken_of_plain (reaches : tagged.Reaches raw.toList stop) (stands : stop.At 0 true)
    {main : String} (member : ⟨.plain, main⟩ ∈ (Scanned.ofRule raw).segments) :
    Unbroken {} main.toList := by
  have cuts := Reading.cuts_upTo raw.toList
  rw [Reading.ofRule_eq_finish, Reading.segments_finish] at member
  rcases List.mem_append.mp member with finished | last
  · exact cuts.plains _ finished rfl
  · have outside := untagged_of_tagged reaches stands
    obtain ⟨_, same⟩ := Segment.eq_of_mem_plainOf last
    cases same
    rw [String.toList_ofList]
    exact (cuts.outside outside.inTag (le_of_eq outside.depth)).1

/-- Parentheses around a text are no delimiters. -/
theorem unbroken_placeholder {name : String} (unbroken : Unbroken {} name.toList) :
    Unbroken {} (placeholder name).toList := by
  have opens (cursor : Cursor) (rest : List Char) (stands : cursor.At 0 false)
      (goesOn : Unbroken {} rest) : cursor.Unbroken rest := by
    rw [stands.eq]
    exact (unbroken_at {} cursor.position rest).mpr goesOn
  have closes (cursor : Cursor) : cursor.boundary? ')' = none := by
    simp [boundary?]
  have text : (placeholder name).toList = '(' :: '(' :: (name.toList ++ [')', ')']) := by
    simp [placeholder]
  rw [text]
  refine ⟨rfl, rfl, opens _ _ ⟨rfl, rfl, rfl⟩ ?_⟩
  exact unbroken_append.mpr ⟨unbroken, closes _, closes _, trivial⟩

end Cursor

/-- A text that a rule may name a symbol by: the name of one of its tags. -/
def Names (rule name : String) : Prop :=
  ∃ raw head, ⟨.tag, raw⟩ ∈ (Scanned.ofRule rule).segments ∧ TagHead.parse raw = .ok head ∧
    head.symbol = name

/-- No segment ends in the placeholder for a symbol that some tag names. -/
theorem unbroken_of_names {rule name : String} (names : Names rule name) :
    Cursor.Unbroken {} (placeholder name).toList := by
  obtain ⟨raw, head, member, parsed, rfl⟩ := names
  refine Cursor.unbroken_placeholder ?_
  rcases TagHead.symbol_of_parse parsed with none | ⟨main, plain, front, whole⟩
  · rw [none]
    trivial
  · obtain ⟨stop, reaches, stands⟩ := Cursor.tagged_of_tag member
    have section_ := Cursor.unbroken_of_plain reaches stands plain
    rw [← whole, Cursor.unbroken_append] at section_
    exact section_.1

/-- The placeholder for a symbol that some tag names is one piece of plain text. -/
theorem segments_placeholder {rule name : String} (names : Names rule name) :
    (Scanned.ofRule (placeholder name)).segments = [⟨.plain, placeholder name⟩] := by
  have scanned := Cursor.segments_of_unbroken (unbroken_of_names names) []
  obtain ⟨ch, rest, text⟩ := List.exists_cons_of_ne_nil (l := (placeholder name).toList)
    (by simp [placeholder])
  rw [Scanned.ofRule, scanned, List.reverse_nil, List.nil_append, text, Segment.plainOf, ← text,
    String.ofList_toList]

namespace Cursor

variable {cursor : Cursor} {chars : List Char}

/-- Outside of every tag and bracket, a text in which no segment ends opens none. -/
theorem outside_of_unbroken (unbroken : cursor.Unbroken chars) (noTag : cursor.inTag = false)
    (outside : cursor.depth ≤ 0) :
    (cursor.after chars).inTag = false ∧ (cursor.after chars).depth ≤ 0 := by
  induction chars generalizing cursor with
  | nil => exact ⟨noTag, outside⟩
  | cons ch rest ih =>
    obtain ⟨within, unbroken⟩ := unbroken
    refine ih unbroken ((inTag_of_within within).trans noTag) ?_
    simp only [boundary?, step] at within ⊢
    split_ifs at within ⊢ <;> grind

/-- Between the marks of a tag no tag is cut out. -/
theorem tagless_upTo (unbroken : tagged.Unbroken chars) :
    ∀ segment ∈ (Reading.upTo chars).done.segments, segment.kind ≠ .tag := by
  induction chars using List.reverseRecOn with
  | nil => exact List.forall_mem_nil _
  | append_singleton chars ch ih =>
    obtain ⟨front, _⟩ := unbroken_append.mp unbroken
    have untagged : (Reading.upTo chars).cursor.inTag = false := by
      rw [Reading.cursor_upTo]
      exact congrArg inTag (after_untagged front rfl)
    rw [Reading.upTo_concat]
    cases ends : (Reading.upTo chars).cursor.boundary? ch with
    | none =>
      rw [Reading.step_within ends]
      exact ih front
    | some kind =>
      rw [Reading.step_boundary ends]
      refine List.forall_mem_append.mpr ⟨ih front, fun segment member tag => ?_⟩
      cases Scanned.eq_of_mem_cut member
      cases tag
      have inside := (ends_of_boundary ends).before_tag.inTag
      exact Bool.false_ne_true (untagged.symm.trans inside)

end Cursor

namespace Segment

/-- What is reported as absent, is some segment. -/
theorem exists_absence {position : Nat} {segments : List Segment} {problem : Problem}
    (member : problem ∈ absences position segments) :
    ∃ segment ∈ segments, ∃ start, segment.absence? start = some problem := by
  induction segments generalizing position with
  | nil => contradiction
  | cons segment rest ih =>
    rcases List.mem_append.mp member with here | later
    · exact ⟨segment, List.mem_cons_self, _, Option.mem_toList.mp here⟩
    · obtain ⟨other, among, start, absent⟩ := ih later
      exact ⟨other, List.mem_cons_of_mem _ among, start, absent⟩

end Segment

section

variable {rule : String} {problem : Problem}

/-- All that can be wrong with the head of a tag is an empty action. -/
theorem emptyAction_of_tag {raw : String} (tag : ⟨.tag, raw⟩ ∈ (Scanned.ofRule rule).segments)
    (met : problem ∈ (Scanned.ofRule raw).problems) :
    ∃ position, problem = .emptyAction position := by
  obtain ⟨stop, reaches, stands⟩ := Cursor.tagged_of_tag tag
  have outside := Cursor.untagged_of_tagged reaches stands
  rw [problems_ofRule] at met
  rcases List.mem_append.mp met with absent | leftOpen
  · obtain ⟨⟨kind, text⟩, member, start, absence⟩ := Segment.exists_absence absent
    rw [Reading.ofRule_eq_finish, Reading.segments_finish] at member
    rcases List.mem_append.mp member with finished | last
    · have noTag := Cursor.tagless_upTo reaches.1 _ finished
      cases kind with
      | plain | tag => contradiction
      | action =>
        simp only [Segment.absence?] at absence
        split_ifs at absence
        cases absence
        exact ⟨start, rfl⟩
    · obtain ⟨_, same⟩ := Segment.eq_of_mem_plainOf last
      cases same
      contradiction
  · simp only [Cursor.leftOpen, outside.inTag, outside.depth] at leftOpen
    contradiction

/-- All that can be wrong with a placeholder is a stray bracket. -/
theorem strayBracket_of_placeholder {name : String} (names : Names rule name)
    (met : problem ∈ (Scanned.ofRule (placeholder name)).problems) : problem = .strayBracket := by
  obtain ⟨noTag, outside⟩ := Cursor.outside_of_unbroken (unbroken_of_names names) rfl le_rfl
  rw [problems_ofRule, segments_placeholder names, Reading.cursor_upTo] at met
  have leftOpen : problem ∈ (Cursor.after {} (placeholder name).toList).leftOpen := met
  simp only [Cursor.leftOpen, noTag, Bool.false_eq_true, ↓reduceIte, List.nil_append,
    Int.not_lt.mpr outside, List.mem_ite_nil_right, List.mem_singleton] at leftOpen
  exact leftOpen.2

end

end TextGrammar
