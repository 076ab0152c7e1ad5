import TextGrammar.Proofs.Brackets

/-! # Well-formed segments

A segment is well formed if its text can stand between its delimiters: plain text with all of its
delimiters escaped, a tag whose brackets close and whose marks stand within them, an action whose
brackets close. A scan reads a tag or an action back wherever it stands. Plain text ends only where
one of these begins or the rule ends, so plain texts must not stand side by side; nothing else is
asked of a list of well-formed segments to be read back from its sources.
-/

namespace TextGrammar

/-- The characters of a text that no backslash takes out of account. -/
def unmarked : List Char → List Char
  | [] => []
  | '\\' :: _ :: rest => unmarked rest
  | ch :: rest => ch :: unmarked rest

/-- What the text of a kind of segment has to be like, its end apart. -/
def SegmentKind.admits : SegmentKind → List Char → Bool
  | .plain, chars => (unmarked chars).all fun ch => ch != '#' && ch != '[' && ch != ']'
  | .tag, chars => bracketsClose 0 chars && marksEnclosed 0 chars
  | .action, chars => bracketsClose 0 chars

/-- A segment that its source gives back: it has text, the text fits between its delimiters, and its
end leaves the delimiter after it alone. -/
structure Segment.WellFormed (segment : Segment) : Prop where
  nonempty : segment.raw ≠ ""
  admitted : segment.kind.admits segment.raw.toList = true
  paired : endsUnpaired segment.raw.toList = false

/-- The scan passes over plain text wherever it stands. -/
theorem passes_plain {chars : List Char} (admitted : SegmentKind.plain.admits chars = true)
    (paired : endsUnpaired chars = false) (inTag : Bool) (depth : Int) :
    Passes inTag depth chars depth := by
  induction chars using unmarked.induct with
  | case1 => exact .nil inTag depth
  | case2 ch rest ih =>
    exact (Passes.marked ch).append (ih admitted ((endsUnpaired_marked ch rest).symm.trans paired))
  | case3 ch rest noMarker ih =>
    -- A backslash gets here at the end of the text only, where it would have no partner.
    have slash : ch ≠ '\\' := by
      rintro rfl
      cases rest with
      | nil => contradiction
      | cons next rest => exact noMarker next rest rfl rfl
    rw [SegmentKind.admits, unmarked.eq_3 _ _ noMarker, List.all_cons, Bool.and_eq_true] at admitted
    obtain ⟨plain, others⟩ := admitted
    have undelimited : isDelimiter ch = false := by
      simp only [bne, Bool.and_eq_true, Bool.not_eq_true'] at plain
      simp only [isDelimiter, plain, beq_false_of_ne slash, Bool.or_self]
    exact .cons (.other (.inl undelimited))
      (ih others ((endsUnpaired_cons slash rest).symm.trans paired))

namespace Segment

/-- Tags and actions that are well formed are read back. -/
theorem WellFormed.readBack {segment : Segment} (wellFormed : segment.WellFormed)
    (enclosed : segment.kind ≠ .plain) : segment.ReadBack := by
  obtain ⟨kind, raw⟩ := segment
  obtain ⟨nonempty, admitted, paired⟩ := wellFormed
  cases kind with
  | plain => contradiction
  | tag =>
    obtain ⟨closes, marks⟩ := Bool.and_eq_true_iff.mp admitted
    exact readBack_tag nonempty (Passes.nested closes paired (.inr ⟨rfl, rfl, marks⟩))
  | action => exact readBack_action nonempty (passes_body ⟨nonempty, admitted, paired⟩ false)

/-- Text that is open where a tag or an action begins, or where the rule ends, is cut off there. -/
theorem scan_opened {segments : List Segment} (enclosed : ∀ segment ∈ segments.head?,
    segment.kind ≠ .plain) {cursor : Cursor} (stands : cursor.At 0 false) (opened : List Char) :
    cursor.scan opened (rule segments).toList =
      .cut .plain opened cursor.position (cursor.scan [] (rule segments).toList) := by
  cases segments with
  | nil => rfl
  | cons segment rest =>
    obtain ⟨kind, raw⟩ := segment
    obtain ⟨opening, text, source, begins⟩ : ∃ opening text,
        (rule (⟨kind, raw⟩ :: rest)).toList = opening :: text ∧
          cursor.boundary? opening = some .plain := by
      rw [toList_rule_cons, stands.eq]
      cases kind with
      | plain => exact (enclosed _ rfl rfl).elim
      | tag => rw [toList_source_tag]; exact ⟨_, _, rfl, rfl⟩
      | action => exact ⟨_, _, congrArg (· ++ _) (toList_source_action raw), rfl⟩
    rw [source, Cursor.scan_boundary begins, Cursor.scan_boundary begins]
    rfl

/-- No two plain texts stand side by side. -/
def Apart (segments : List Segment) : Prop :=
  segments.IsChain fun one next => one.kind = .plain → next.kind ≠ .plain

theorem scan_of_wellFormed {segments : List Segment}
    (wellFormed : ∀ segment ∈ segments, segment.WellFormed) (apart : Apart segments)
    {cursor : Cursor} (stands : cursor.At 0 false) :
    cursor.scan [] (rule segments).toList = ⟨segments, []⟩ := by
  induction segments generalizing cursor with
  | nil =>
    rw [stands.eq]
    rfl
  | cons segment rest ih =>
    obtain ⟨first, others⟩ := List.forall_mem_cons.mp wellFormed
    obtain ⟨next, restApart⟩ := List.isChain_cons.mp apart
    rw [toList_rule_cons]
    by_cases plain : segment.kind = .plain
    · -- The scan passes over the text, which ends with what comes next.
      obtain ⟨kind, raw⟩ := segment
      cases plain
      have enclosed : ∀ segment ∈ rest.head?, segment.kind ≠ .plain :=
        fun segment member => next segment member rfl
      obtain ⟨middle, stands, passes⟩ :=
        passes_plain first.admitted first.paired false 0 cursor stands
      change cursor.scan [] (raw.toList ++ _) = _
      rw [passes, List.append_nil, scan_opened enclosed stands, Scanned.cut_text first.nonempty,
        ih others restApart stands]
      rfl
    · obtain ⟨middle, stands, reads⟩ := first.readBack plain cursor stands
      rw [reads, ih others restApart stands]
      rfl

end Segment

/-- Well-formed segments, of which no two plain texts stand side by side, are read back from their
sources, with nothing to report. -/
theorem ofRule_of_wellFormed {segments : List Segment}
    (wellFormed : ∀ segment ∈ segments, segment.WellFormed) (apart : Segment.Apart segments) :
    Scanned.ofRule (Segment.rule segments) = ⟨segments, []⟩ :=
  Segment.scan_of_wellFormed wellFormed apart ⟨rfl, rfl, rfl⟩

/-- Escaped delimiters in text, an action in a tag with a tag and an action in it, an action with
escapes, and two tags side by side. -/
theorem ofRule_of_wellFormed_nested :
    let segments : List Segment := [⟨.plain, "é\\#\\["⟩, ⟨.tag, "[x:#[y:a\\]]b#[c]]d.s"⟩,
      ⟨.action, "e:\\[#f#,[g]\\\\"⟩, ⟨.tag, "h"⟩, ⟨.tag, "i\\#"⟩, ⟨.plain, "j"⟩]
    Segment.rule segments =
        "é\\#\\[#[x:#[y:a\\]]b#[c]]d.s#[e:\\[#f#,[g]\\\\]#h##i\\##j" ∧
      (∀ segment ∈ segments, segment.WellFormed) ∧ Segment.Apart segments ∧
      Scanned.ofRule (Segment.rule segments) = ⟨segments, []⟩ := by
  intro segments
  have wellFormed : ∀ segment ∈ segments, segment.WellFormed := by
    have checked : ∀ segment ∈ segments, segment.raw ≠ "" ∧
        segment.kind.admits segment.raw.toList = true ∧
        endsUnpaired segment.raw.toList = false := by
      simp only [segments]
      decide
    intro segment member
    obtain ⟨nonempty, admitted, paired⟩ := checked segment member
    exact ⟨nonempty, admitted, paired⟩
  have apart : Segment.Apart segments := by
    simp [segments, Segment.Apart]
  refine ⟨?_, wellFormed, apart, ofRule_of_wellFormed wellFormed apart⟩
  simp only [segments]
  cbv

end TextGrammar
