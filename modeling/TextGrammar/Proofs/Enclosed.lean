import TextGrammar.Lint.References
import TextGrammar.Proofs.Placeholders

/-! # The texts inside a rule

Expanding a rule runs the actions in it and in the heads of its tags, and these expand further
texts: what they call, and the parts of what they push. Such a text is shorter than the rule, so a
walk with enough levels comes to all texts inside a rule, and finds of each what it refers to.
-/

namespace TextGrammar

/-- The bodies of the actions that a segment runs itself. -/
def Segment.bodies (segment : Segment) : List String :=
  match segment.kind with
  | .plain => []
  | .action => [segment.raw]
  | .tag =>
    match TagHead.parse segment.raw with
    | .error _ => []
    | .ok head => head.preactions

/-- The bodies of the actions that a rule runs itself. -/
def bodies (rule : String) : List String :=
  (Scanned.ofRule rule).segments.flatMap Segment.bodies

/-- The texts that an action expands. -/
def Action.texts : Action → List String
  | .push _ rule => Text.split ',' rule
  | .pop _ => []
  | .call rule => [rule]

/-- The texts that are expanded where a rule is, without a rule being selected. -/
inductive Encloses (rule : String) : String → Prop
  | self : Encloses rule rule
  | run {text body inner : String} (inside : Encloses rule text) (body_mem : body ∈ bodies text)
      (inner_mem : inner ∈ (Action.parse body).texts) : Encloses rule inner

theorem Encloses.trans {rule between text : String} (outer : Encloses rule between)
    (inner : Encloses between text) : Encloses rule text := by
  induction inner with
  | self => exact outer
  | run _ body_mem inner_mem inside => exact .run inside body_mem inner_mem

namespace Text

/-- A piece between marks is no longer than the text. -/
theorem length_piece_le {mark : Char} {text piece : String} (member : piece ∈ split mark text) :
    piece.length ≤ text.length := by
  have bound (pieces : List (List Char)) (chars : List Char) (member : chars ∈ pieces) :
      chars.length ≤ ([mark].intercalate pieces).length := by
    induction pieces with
    | nil => contradiction
    | cons first rest ih =>
      cases rest with
      | nil => simp_all
      | cons next rest =>
        rw [List.intercalate_cons_cons, List.length_append, List.length_append]
        rcases List.mem_cons.mp member with rfl | later
        · omega
        · have := ih later
          omega
  obtain ⟨chars, found, rfl⟩ := List.mem_map.mp member
  have short := bound _ _ found
  rwa [List.intercalate_splitOn, String.length_toList, ← String.length_ofList] at short

/-- What comes behind the first mark is shorter than the text. -/
theorem length_cut?_le {mark : Char} {text front back : String}
    (cut : cut? mark text = some (front, back)) : back.length ≤ text.length := by
  rw [eq_of_cut? cut, String.length_append]
  omega

end Text

/-- What an action expands is no longer than its body. -/
theorem Action.length_text_le {body inner : String} (member : inner ∈ (Action.parse body).texts) :
    inner.length ≤ body.length := by
  simp only [Action.parse] at member
  split at member
  · rw [List.mem_singleton.mp member]
  · next target rule cut =>
    split at member
    · contradiction
    · exact (Text.length_piece_le member).trans (Text.length_cut?_le cut)

theorem Segment.length_source_le {segments : List Segment} {segment : Segment}
    (member : segment ∈ segments) : segment.source.length ≤ (Segment.rule segments).length := by
  induction segments with
  | nil => contradiction
  | cons first rest ih =>
    rw [rule_cons, String.length_append]
    rcases List.mem_cons.mp member with rfl | later
    · omega
    · have := ih later
      omega

section

variable {rule raw body inner : String}

/-- The text of a tag or an action is shorter than the rule that it stands in. -/
theorem length_raw_lt {kind : SegmentKind} (member : ⟨kind, raw⟩ ∈ (Scanned.ofRule rule).segments)
    (enclosed : kind ≠ .plain) : raw.length < rule.length := by
  have accounts := Reading.accounts_upTo rule.toList
  rw [Reading.ofRule_eq_finish, Reading.segments_finish] at member
  rcases List.mem_append.mp member with finished | last
  · have whole := congrArg List.length accounts.text
    have part := Segment.length_source_le finished
    have delimited : (Segment.source ⟨kind, raw⟩).length = 1 + raw.length + 1 := by
      cases kind with
      | plain => contradiction
      | tag | action => exact (String.length_append ..).trans (congrArg (· + 1)
          (String.length_append ..))
    rw [List.length_append, List.length_append, String.length_toList, String.length_toList] at whole
    omega
  · obtain ⟨_, same⟩ := Segment.eq_of_mem_plainOf last
    cases same
    contradiction

theorem length_body_lt (member : body ∈ bodies rule) : body.length < rule.length := by
  obtain ⟨⟨kind, raw⟩, found, runs⟩ := List.mem_flatMap.mp member
  cases kind with
  | plain => contradiction
  | action =>
    rw [List.mem_singleton.mp runs]
    exact length_raw_lt found SegmentKind.noConfusion
  | tag =>
    have shorter := length_raw_lt found SegmentKind.noConfusion
    simp only [Segment.bodies] at runs
    split at runs
    · contradiction
    · next head parsed =>
      have enclosed : body ∈ (Scanned.ofRule raw).enclosedTexts :=
        TagHead.preactions_of_parse parsed ▸ runs
      obtain ⟨⟨kind, _⟩, kept, rfl⟩ := List.mem_map.mp enclosed
      obtain ⟨within, other⟩ := List.mem_filter.mp kept
      exact (length_raw_lt within (bne_iff_ne.mp other)).trans shorter

end

end TextGrammar
