import Mathlib
import TextGrammar.Rule.Scan

/-! # Scanning rules that are put together

A scan reads its characters one by one, so it can be cut anywhere: what is read before the cut
leaves finished segments, an open one, and a cursor. Where the cursor stands outside every tag and
bracket, the open segment is plain text, and all that the first part leaves to the second is the
text that runs on across the seam.
-/

namespace TextGrammar

/-- A text ends in a backslash without a partner: in an odd number of backslashes. -/
def endsUnpaired (chars : List Char) : Bool :=
  (chars.reverse.takeWhile (· == '\\')).length % 2 == 1

theorem endsUnpaired_concat (chars : List Char) (ch : Char) :
    endsUnpaired (chars ++ [ch]) = (!endsUnpaired chars && ch == '\\') := by
  simp only [endsUnpaired, List.reverse_append, List.reverse_singleton, List.singleton_append,
    List.takeWhile_cons]
  cases ch == '\\' with
  | false => simp only [Bool.false_eq_true, ↓reduceIte, List.length_nil, Bool.and_false]; rfl
  | true =>
    simp only [↓reduceIte, List.length_cons, Bool.and_true]
    generalize (chars.reverse.takeWhile (· == '\\')).length = count
    rw [Bool.eq_iff_iff, Bool.not_eq_true', beq_iff_eq, beq_eq_false_iff_ne]
    omega

namespace Cursor

/-- Where a scan stands after some characters. -/
def after (cursor : Cursor) (chars : List Char) : Cursor :=
  chars.foldl step cursor

variable (cursor : Cursor)

theorem escaped_step (ch : Char) :
    (cursor.step ch).escaped = (!cursor.escaped && ch == '\\') := by
  by_cases backslash : ch = '\\'
  · subst backslash
    cases escaped : cursor.escaped <;> simp [step, escaped]
  · simp only [step, backslash, beq_false_of_ne backslash, Bool.and_false, ↓reduceIte]
    split_ifs <;> rfl

/-- A scan is left escaped by a text that ends in a backslash without a partner. -/
theorem escaped_after {cursor : Cursor} (unescaped : cursor.escaped = false) (chars : List Char) :
    (cursor.after chars).escaped = endsUnpaired chars := by
  induction chars using List.reverseRecOn with
  | nil => exact unescaped
  | append_singleton chars ch ih =>
    rw [endsUnpaired_concat, ← ih, ← escaped_step, after, after, List.foldl_append]
    rfl

end Cursor

namespace Scanned

/-- What a scan yields when another follows. -/
def followedBy (scanned next : Scanned) : Scanned :=
  ⟨scanned.segments ++ next.segments, scanned.problems ++ next.problems⟩

theorem cut_followedBy (kind : SegmentKind) (reversed : List Char) (position : Nat)
    (scanned next : Scanned) :
    cut kind reversed position (scanned.followedBy next) =
      (cut kind reversed position scanned).followedBy next := by
  cases reversed <;> cases kind <;> rfl

theorem problems_cut (kind : SegmentKind) (reversed : List Char) (position : Nat)
    (rest : Scanned) : rest.problems ⊆ (cut kind reversed position rest).problems := by
  cases reversed <;> cases kind <;>
    first | exact List.Subset.refl _ | exact List.subset_cons_self _ _

end Scanned

/-- The segments of plain text; there is none if the text is empty. -/
def Segment.plainOf : List Char → List Segment
  | [] => []
  | ch :: rest => [⟨.plain, .ofList (ch :: rest)⟩]

theorem Scanned.segments_cut_plain (reversed : List Char) (position : Nat) (rest : Scanned) :
    (cut .plain reversed position rest).segments =
      Segment.plainOf reversed.reverse ++ rest.segments := by
  cases reversed with
  | nil => rfl
  | cons ch more =>
    obtain ⟨first, others, split⟩ := List.exists_cons_of_ne_nil
      (List.reverse_ne_nil_iff.mpr (List.cons_ne_nil ch more))
    simp only [cut, split, Segment.plainOf, List.singleton_append]

/-- Where a segment stands shows in problems only. -/
theorem Scanned.segments_cut (kind : SegmentKind) (reversed : List Char) (position other : Nat)
    {rest next : Scanned} (same : rest.segments = next.segments) :
    (cut kind reversed position rest).segments = (cut kind reversed other next).segments := by
  cases reversed <;> cases kind <;> simp only [cut, same]

namespace Cursor

/-- What can be seen at the end of a scan only, the scan tells. -/
theorem leftOpen_subset (cursor : Cursor) (reversed chars : List Char) :
    (cursor.after chars).leftOpen ⊆ (cursor.scan reversed chars).problems := by
  induction chars generalizing cursor reversed with
  | nil => exact Scanned.problems_cut _ _ _ ⟨[], cursor.leftOpen⟩
  | cons ch rest ih =>
    simp only [scan]
    split
    · exact List.Subset.trans (ih (cursor.step ch) []) (Scanned.problems_cut _ _ _ _)
    · exact ih (cursor.step ch) (ch :: reversed)

/-- A scan may be cut after any character. -/
theorem scan_append (cursor : Cursor) (reversed chars : List Char) :
    ∃ front opened, ∀ more, cursor.scan reversed (chars ++ more) =
      Scanned.followedBy front ((cursor.after chars).scan opened more) := by
  induction chars generalizing cursor reversed with
  | nil => exact ⟨{}, reversed, fun _ => rfl⟩
  | cons ch rest ih =>
    simp only [List.cons_append, scan]
    cases ends : cursor.boundary? ch with
    | some kind =>
      obtain ⟨front, opened, splits⟩ := ih (cursor.step ch) []
      refine ⟨.cut kind reversed cursor.position front, opened, fun more => ?_⟩
      simp only [splits more, Scanned.cut_followedBy]
      rfl
    | none =>
      obtain ⟨front, opened, splits⟩ := ih (cursor.step ch) (ch :: reversed)
      exact ⟨front, opened, splits⟩

theorem step_at (cursor : Cursor) (position : Nat) (ch : Char) :
    { cursor with position }.step ch =
      { cursor.step ch with position := position + ch.utf8Size } := by
  simp only [step]
  split_ifs <;> rfl

/-- Only problems tell where in its rule a segment stands. -/
theorem segments_scan_at (cursor : Cursor) (position : Nat) (reversed chars : List Char) :
    ({ cursor with position }.scan reversed chars).segments =
      (cursor.scan reversed chars).segments := by
  induction chars generalizing cursor position reversed with
  | nil => exact Scanned.segments_cut _ _ _ _ rfl
  | cons ch rest ih =>
    have boundary : { cursor with position }.boundary? ch = cursor.boundary? ch := rfl
    simp only [scan, boundary, step_at]
    cases cursor.boundary? ch with
    | some kind => exact Scanned.segments_cut _ _ _ _ (ih (cursor.step ch) _ [])
    | none => exact ih (cursor.step ch) _ _

section

variable {cursor : Cursor} (noTag : cursor.inTag = false) (outside : cursor.depth ≤ 0)
include noTag outside

theorem boundary?_outside {ch : Char} {kind : SegmentKind}
    (ends : cursor.boundary? ch = some kind) : kind = .plain := by
  simp only [boundary?, noTag, and_true, Bool.false_eq_true, ↓reduceIte] at ends
  split_ifs at ends with escaped opens bare closes level marks <;> cases ends
  · rfl
  · omega
  · rfl

theorem step_outside {ch : Char} (within : cursor.boundary? ch = none) :
    (cursor.step ch).inTag = false ∧ (cursor.step ch).depth ≤ 0 := by
  simp only [step]
  split_ifs with escaped opens closes marks slash
  · exact ⟨noTag, outside⟩
  · have below : cursor.depth ≠ 0 := by
      simpa only [boundary?, escaped, opens, noTag, and_true, ite_eq_right_iff, reduceCtorEq,
        imp_false, ↓reduceIte] using within
    exact ⟨noTag, Int.add_one_le_iff.mpr (lt_of_le_of_ne outside below)⟩
  · exact ⟨noTag, by simp only; omega⟩
  · simp only [boundary?, escaped, opens, closes, if_pos marks, ↓reduceIte, reduceCtorEq] at within
  · exact ⟨noTag, outside⟩
  · exact ⟨noTag, outside⟩

/-- Outside of tags and brackets, what is open is plain text, and it may have begun earlier. -/
theorem segments_scan_outside (chars : List Char) :
    ∃ middle back, ∀ opened, (cursor.scan opened chars).segments =
      Segment.plainOf (opened.reverse ++ middle) ++ back := by
  induction chars generalizing cursor with
  | nil =>
    refine ⟨[], [], fun opened => ?_⟩
    rw [scan, Scanned.segments_cut_plain, List.append_nil, List.append_nil, List.append_nil]
  | cons ch rest ih =>
    cases ends : cursor.boundary? ch with
    | some kind =>
      cases boundary?_outside noTag outside ends
      refine ⟨[], ((cursor.step ch).scan [] rest).segments, fun opened => ?_⟩
      simp only [scan, ends, Scanned.segments_cut_plain, List.append_nil]
    | none =>
      obtain ⟨noTag, outside⟩ := step_outside noTag outside ends
      obtain ⟨middle, back, splits⟩ := ih noTag outside
      refine ⟨ch :: middle, back, fun opened => ?_⟩
      simp only [scan, ends, splits, List.reverse_cons, List.append_assoc, List.singleton_append]

end

end Cursor

/-- Where a cursor stands, with nothing escaped there. -/
structure Cursor.At (cursor : Cursor) (depth : Int) (inTag : Bool) : Prop where
  depth : cursor.depth = depth
  inTag : cursor.inTag = inTag
  escaped : cursor.escaped = false

theorem Cursor.At.eq {cursor : Cursor} {depth : Int} {inTag : Bool}
    (stands : cursor.At depth inTag) : cursor = { position := cursor.position, depth, inTag } := by
  obtain ⟨position, _, _, _⟩ := cursor
  obtain ⟨rfl, rfl, rfl⟩ := stands
  rfl

/-- A rule leaves the scan closed if the scan finds nothing left open in it and it does not end in a
backslash without a partner. -/
theorem closed_of_problems {rule : String}
    (noTag : .unclosedTag ∉ (Scanned.ofRule rule).problems)
    (noBracket : .unclosedBracket ∉ (Scanned.ofRule rule).problems)
    (noStray : .strayBracket ∉ (Scanned.ofRule rule).problems)
    (paired : endsUnpaired rule.toList = false) : (Cursor.after {} rule.toList).At 0 false := by
  have told := Cursor.leftOpen_subset {} [] rule.toList
  refine ⟨le_antisymm ?_ ?_, ?_, (Cursor.escaped_after rfl rule.toList).trans paired⟩
  · by_contra within
    exact noBracket (told (by simp [Cursor.leftOpen, not_le.mp within]))
  · by_contra below
    exact noStray (told (by simp [Cursor.leftOpen, not_le.mp below]))
  · by_contra inTag
    exact noTag (told (by simp [Cursor.leftOpen, inTag]))

/-- The scan of two texts one after the other, of which the first leaves it closed: text runs on
across the seam, and all else is scanned as it is in either. -/
theorem segments_ofRule_append {first : String}
    (closed : (Cursor.after {} first.toList).At 0 false) (second : String) :
    ∃ front before middle back,
      (Scanned.ofRule (first ++ second)).segments =
        front ++ (Segment.plainOf (before ++ middle) ++ back) ∧
      (Scanned.ofRule first).segments = front ++ Segment.plainOf before ∧
      (Scanned.ofRule second).segments = Segment.plainOf middle ++ back := by
  obtain ⟨front, opened, splits⟩ := Cursor.scan_append {} [] first.toList
  obtain ⟨middle, back, rest⟩ :=
    Cursor.segments_scan_outside closed.inTag (le_of_eq closed.depth) second.toList
  refine ⟨front.segments, opened.reverse, middle, back, ?_, ?_, ?_⟩
  · simp only [Scanned.ofRule, String.toList_append, splits, Scanned.followedBy, rest]
  · have alone := splits []
    rw [List.append_nil] at alone
    simp only [Scanned.ofRule, alone, Scanned.followedBy, Cursor.scan,
      Scanned.segments_cut_plain, List.append_nil]
  · have fromHere := rest []
    rw [closed.eq, List.reverse_nil, List.nil_append] at fromHere
    exact (Cursor.segments_scan_at {} _ [] second.toList).symm.trans fromHere

end TextGrammar
