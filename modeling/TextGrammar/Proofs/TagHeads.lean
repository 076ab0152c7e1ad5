import TextGrammar.Proofs.Bracketing

/-! # What a tag head is made of

Between its marks a tag holds bracket groups and the text around them. A group opens where all
brackets before it are closed, those that close without having been opened included, and it ends
with its partner. No mark stands outside of all brackets there, or the tag would have ended. So a
scan of the head finds the groups and the texts between them, and nothing else: whether the head is
ambiguous, and what its parts are, can be read off the way it falls into them.
-/

namespace TextGrammar

namespace Cursor

variable {cursor start stop : Cursor} {chars : List Char}

/-- A text that goes to the open segment as a whole. -/
theorem scan_of_unbroken (unbroken : cursor.Unbroken chars) (reversed more : List Char) :
    cursor.scan reversed (chars ++ more) =
      (cursor.after chars).scan (chars.reverse ++ reversed) more := by
  induction chars generalizing cursor reversed with
  | nil => rfl
  | cons ch rest ih =>
    rw [List.cons_append, scan_within unbroken.1, ih unbroken.2, List.reverse_cons,
      List.append_assoc]
    rfl

theorem inTag_after (unbroken : cursor.Unbroken chars) :
    (cursor.after chars).inTag = cursor.inTag := by
  induction chars generalizing cursor with
  | nil => rfl
  | cons ch rest ih => exact (ih unbroken.2).trans (inTag_of_within unbroken.1)

/-- A character that ends nothing in a tag is stepped over alike outside of it. -/
theorem step_tagged {ch : Char} (within : { cursor with inTag := true }.boundary? ch = none) :
    { cursor with inTag := true }.step ch = { cursor.step ch with inTag := true } := by
  simp only [boundary?, step] at within ⊢
  split_ifs at within ⊢ <;> simp_all

theorem after_tagged (marks : { cursor with inTag := true }.Unbroken chars) :
    { cursor with inTag := true }.after chars = { cursor.after chars with inTag := true } := by
  induction chars generalizing cursor with
  | nil => rfl
  | cons ch rest ih =>
    obtain ⟨within, marks⟩ := marks
    rw [step_tagged within] at marks
    have goesOn := ih marks
    simp only [after, List.foldl_cons, step_tagged within] at goesOn ⊢
    exact goesOn

/-- How a scan counts the brackets of a text that it takes as a whole, outside of tags: it starts
from a base, each bracket that opens leads it one step away and each that closes one step back, and
the text would end where one closes at the base. Outside of all brackets the kinds change places: a
bracket that opens may only undo what one that closes did before. -/
structure Counts (base direction : Int) (opening closing : Char) : Prop where
  differ : opening ≠ closing
  moves : direction ≠ 0
  turns (read : List Char) : (read.count '[' - read.count ']' : Int) =
    direction * (read.count opening - read.count closing)
  ends {cursor : Cursor} {opened : Nat} (stands : cursor.At (base + direction * opened) false)
    (ch : Char) : cursor.boundary? ch = none ↔
      ¬ (opened = 0 ∧ ch = closing) ∧ ¬ (ch = '#' ∧ cursor.depth = 0)

theorem counts_within : Counts 1 1 '[' ']' where
  differ := by decide
  moves := by decide
  turns read := by omega
  ends {cursor opened} stands ch := by
    rw [stands.eq]
    simp only [boundary?]
    by_cases opens : ch = '['
    · subst opens
      simp
      omega
    by_cases closes : ch = ']'
    · subst closes
      simp
    · simp [opens, closes]

theorem counts_outside : Counts 0 (-1) ']' '[' where
  differ := by decide
  moves := by decide
  turns read := by omega
  ends {cursor opened} stands ch := by
    rw [stands.eq]
    simp only [boundary?]
    by_cases opens : ch = '['
    · subst opens
      simp
    by_cases closes : ch = ']'
    · subst closes
      simp
      omega
    · simp [opens, closes]

namespace Counts

variable {base direction : Int} {opening closing : Char} {opened : Nat}
  (counts : Counts base direction opening closing)
  (stands : cursor.At (base + direction * opened) false)
include counts stands

/-- A character that ends nothing leads to where the brackets are open that it leaves open. -/
theorem step {ch : Char} (plain : ch ≠ '\\') (within : cursor.boundary? ch = none) :
    ∃ next : Nat, opened + [ch].count opening = next + [ch].count closing ∧
      (cursor.step ch).At (base + direction * next) false := by
  have inside : [ch].count closing ≤ opened + [ch].count opening := by
    have last := ((counts.ends stands ch).mp within).1
    by_cases closes : ch = closing
    · subst closes
      have some : opened ≠ 0 := fun none => last ⟨none, rfl⟩
      rw [List.count_singleton_self]
      omega
    · rw [List.count_eq_zero_of_not_mem fun same => closes (List.mem_singleton.mp same).symm]
      exact Nat.zero_le _
  obtain ⟨next, level⟩ := Nat.exists_eq_add_of_le' inside
  refine ⟨next, level, ?_, ?_, ?_⟩
  · have counted : (next : Int) = opened + [ch].count opening - [ch].count closing := by omega
    have moved := counts.turns [ch]
    rw [depth_step stands.escaped, stands.depth, counted]
    linear_combination moved
  · rw [inTag_of_within within, stands.inTag]
  · rw [escaped_step, beq_false_of_ne plain, Bool.and_false]

/-- The brackets of a text that a scan takes as a whole nest if it ends where it would be closed. -/
theorem nests_of_unbroken (unbroken : cursor.Unbroken chars)
    (returns : (cursor.after chars).At base false) :
    Nests opening closing opened (unmarked chars) := by
  induction chars using unmarked.induct generalizing cursor opened with
  | case1 =>
    have level : base + direction * opened = base := stands.depth.symm.trans returns.depth
    have still : direction * opened = 0 := by omega
    apply nests_nil.mpr
    exact Int.natCast_eq_zero.mp ((mul_eq_zero.mp still).resolve_left counts.moves)
  | case2 ch rest ih =>
    rw [stands.eq] at unbroken returns
    exact ih ⟨rfl, rfl, rfl⟩ unbroken.2.2 returns
  | case3 ch rest noMarker ih =>
    have plain : ch ≠ '\\' := by
      rintro rfl
      cases rest with
      | nil =>
        have escaped := returns.escaped
        rw [escaped_after stands.escaped] at escaped
        contradiction
      | cons next rest => exact noMarker next rest rfl rfl
    obtain ⟨next, level, steps⟩ := counts.step stands plain unbroken.1
    rw [unmarked.eq_3 _ _ noMarker]
    exact (nests_cons level).mpr (ih steps unbroken.2 returns)

/-- A scan takes a text as a whole if its brackets nest and no mark of it would end a tag. -/
theorem unbroken_of_nests (marks : { cursor with inTag := true }.Unbroken chars)
    (paired : endsUnpaired chars = false)
    (nests : Nests opening closing opened (unmarked chars)) : cursor.Unbroken chars := by
  induction chars using unmarked.induct generalizing cursor opened with
  | case1 => trivial
  | case2 ch rest ih =>
    rw [stands.eq] at marks ⊢
    rw [endsUnpaired_marked] at paired
    exact ⟨rfl, rfl, ih ⟨rfl, rfl, rfl⟩ marks.2.2 paired nests⟩
  | case3 ch rest noMarker ih =>
    have plain : ch ≠ '\\' := by
      rintro rfl
      cases rest with
      | nil => contradiction
      | cons next rest => exact noMarker next rest rfl rfl
    rw [unmarked.eq_3 _ _ noMarker] at nests
    have within : cursor.boundary? ch = none := by
      apply (counts.ends stands ch).mpr
      constructor
      · rintro ⟨rfl, rfl⟩
        exact not_nests_stray counts.differ _ nests
      · rintro ⟨rfl, level⟩
        have noMark := marks.1
        simp [boundary?, stands.escaped, level] at noMark
    obtain ⟨next, level, steps⟩ := counts.step stands plain within
    have goesOn := marks.2
    rw [step_tagged marks.1] at goesOn
    rw [endsUnpaired_cons plain] at paired
    exact ⟨within, ih steps goesOn paired ((nests_cons level).mp nests)⟩

/-- A text whose brackets nest leads back to the base. -/
theorem returns (unbroken : cursor.Unbroken chars) (paired : endsUnpaired chars = false)
    (nests : Nests opening closing opened (unmarked chars)) :
    (cursor.after chars).At base false := by
  refine ⟨?_, ?_, ?_⟩
  · have moved := counts.turns (unmarked chars)
    have even : ((unmarked chars).count closing : Int) = opened + (unmarked chars).count opening :=
      by exact_mod_cast nests.1
    rw [depth_after stands.escaped, stands.depth]
    rw [even] at moved
    linear_combination moved
  · rw [inTag_after unbroken, stands.inTag]
  · rw [escaped_after stands.escaped, paired]

end Counts

end Cursor

/-- What a text falls into when its bracket groups are cut out. A group opens outside of all
brackets and ends with its partner. In a text between groups no bracket opens unless one closed
there before, and as many open as close: the kinds have changed places. -/
inductive Segment.IsPart : Segment → Prop
  | text {raw : String} (nonempty : raw ≠ "") (nests : Nests ']' '[' 0 (unmarked raw.toList))
      (paired : endsUnpaired raw.toList = false) : IsPart ⟨.plain, raw⟩
  | group {body : String} (nests : Nests '[' ']' 0 (unmarked body.toList))
      (paired : endsUnpaired body.toList = false) : IsPart (.action body)

/-- A text falls into parts: bracket groups that open outside of all brackets, and the texts around
them, none of them empty. -/
structure Segment.Parted (text : String) (parts : List Segment) : Prop where
  whole : rule parts = text
  each : ∀ part ∈ parts, part.IsPart
  apart : Apart parts

namespace Scanned

/-- A tag or an action is cut off with its text, also if it has none. -/
theorem segments_cut_text {kind : SegmentKind} {raw : String} (held : kind = .plain → raw ≠ "")
    (position : Nat) (rest : Scanned) :
    (cut kind raw.toList.reverse position rest).segments = ⟨kind, raw⟩ :: rest.segments := by
  by_cases empty : raw = ""
  · subst empty
    cases kind with
    | plain => exact absurd rfl (held rfl)
    | tag | action => rfl
  · rw [cut_text empty]
    rfl

end Scanned

namespace Cursor

variable {cursor : Cursor} (stands : cursor.At 0 false)
include stands

/-- A scan of a tag head takes a text around groups as a whole. -/
theorem scan_text {raw : String} (nests : Nests ']' '[' 0 (unmarked raw.toList))
    (paired : endsUnpaired raw.toList = false)
    (marks : { cursor with inTag := true }.Unbroken raw.toList) :
    (cursor.after raw.toList).At 0 false ∧ ∀ more,
      cursor.scan [] (raw.toList ++ more) =
        (cursor.after raw.toList).scan raw.toList.reverse more := by
  have level : cursor.At (0 + -1 * (0 : Nat)) false := stands
  have unbroken := counts_outside.unbroken_of_nests level marks paired nests
  refine ⟨counts_outside.returns level unbroken paired nests, fun more => ?_⟩
  rw [scan_of_unbroken unbroken, List.append_nil]

/-- A scan of a tag head finds a group. -/
theorem scan_group {body : String} (nests : Nests '[' ']' 0 (unmarked body.toList))
    (paired : endsUnpaired body.toList = false)
    (marks : { cursor with inTag := true }.Unbroken (Segment.action body).source.toList) :
    (cursor.after (Segment.action body).source.toList).At 0 false ∧ ∀ more,
      (cursor.scan [] ((Segment.action body).source.toList ++ more)).segments =
        .action body ::
          ((cursor.after (Segment.action body).source.toList).scan [] more).segments := by
  rw [Segment.toList_source_action] at marks ⊢
  have begins : cursor.boundary? '[' = some .plain := by
    rw [stands.eq]
    rfl
  have level : (cursor.step '[').At (1 + 1 * (0 : Nat)) false := by
    rw [stands.eq]
    exact ⟨rfl, rfl, rfl⟩
  have inBody := (unbroken_append.mp marks.2).1
  rw [step_tagged marks.1] at inBody
  have unbroken := counts_within.unbroken_of_nests level inBody paired nests
  have inside := counts_within.returns level unbroken paired nests
  have ends : ((cursor.step '[').after body.toList).boundary? ']' = some .action := by
    rw [inside.eq]
    rfl
  have path : cursor.after ('[' :: (body.toList ++ [']'])) =
      ((cursor.step '[').after body.toList).step ']' := List.foldl_append ..
  constructor
  · rw [path, inside.eq]
    exact ⟨rfl, rfl, rfl⟩
  · intro more
    have scanned : cursor.scan [] ('[' :: (body.toList ++ [']']) ++ more) =
        .cut .plain [] cursor.position (.cut .action body.toList.reverse
          ((cursor.step '[').after body.toList).position
            ((cursor.after ('[' :: (body.toList ++ [']']))).scan [] more)) := by
      rw [path, List.cons_append, List.append_assoc, scan_boundary begins,
        scan_of_unbroken unbroken, List.append_nil, List.singleton_append, scan_boundary ends]
    rw [scanned, Scanned.segments_cut_plain]
    exact Scanned.segments_cut_text (fun plain => absurd plain (by decide)) _ _

end Cursor

namespace Segment

/-- A scan of a tag head finds the parts that the head falls into. -/
theorem segments_scan_parts {parts : List Segment} (each : ∀ part ∈ parts, part.IsPart)
    (apart : Apart parts) {cursor : Cursor} (stands : cursor.At 0 false)
    (marks : { cursor with inTag := true }.Unbroken (rule parts).toList) :
    (cursor.scan [] (rule parts).toList).segments = parts := by
  induction parts generalizing cursor with
  | nil => exact Scanned.segments_cut_plain [] cursor.position ⟨[], cursor.leftOpen⟩
  | cons part rest ih =>
    obtain ⟨first, others⟩ := List.forall_mem_cons.mp each
    obtain ⟨next, restApart⟩ := List.isChain_cons.mp apart
    rw [toList_rule_cons] at marks ⊢
    obtain ⟨inPart, behind⟩ := Cursor.unbroken_append.mp marks
    rw [Cursor.after_tagged inPart] at behind
    cases first with
    | @text raw nonempty nests paired =>
      -- Text ends where the next group begins, or with the head.
      have enclosed : ∀ segment ∈ rest.head?, segment.kind ≠ .plain :=
        fun segment member => next segment member rfl
      obtain ⟨returns, scans⟩ := Cursor.scan_text stands nests paired inPart
      have read := scans (rule rest).toList
      rw [scan_opened enclosed returns] at read
      refine (congrArg Scanned.segments read).trans ?_
      rw [Scanned.segments_cut_text fun _ => nonempty]
      exact congrArg _ (ih others restApart returns behind)
    | @group body nests paired =>
      obtain ⟨returns, scans⟩ := Cursor.scan_group stands nests paired inPart
      rw [scans]
      exact congrArg _ (ih others restApart returns behind)

/-- There is one way for a tag head to fall into parts, and a scan finds it. -/
theorem Parted.eq_segments {text : String} {parts : List Segment} (parted : Parted text parts)
    (marks : Cursor.tagged.Unbroken text.toList) : (Scanned.ofRule text).segments = parts := by
  obtain ⟨rfl, each, apart⟩ := parted
  exact segments_scan_parts each apart ⟨rfl, rfl, rfl⟩ marks

end Segment

/-- At most one segment is cut off, and only text that is empty is dropped. -/
theorem Scanned.segments_cut_cases (kind : SegmentKind) (reversed : List Char) (position : Nat) :
    (cut kind reversed position {}).segments = [] ∧ kind = .plain ∨
      (cut kind reversed position {}).segments = [⟨kind, .ofList reversed.reverse⟩] := by
  cases reversed with
  | nil =>
    cases kind with
    | plain => exact .inl ⟨rfl, rfl⟩
    | tag | action => exact .inr rfl
  | cons ch rest => exact .inr rfl

/-- Plain text ends where something opens. -/
theorem Cursor.Ends.opens {cursor : Cursor} {ch : Char} (ends : cursor.Ends ch .plain) :
    (cursor.step ch).opener ≠ [] := by
  cases ends with
  | actionOpens _ after | tagOpens _ after =>
    rw [after.opener]
    decide

/-- Where a scan stands at the body of an action. -/
def Cursor.bracketed : Cursor :=
  { depth := 1 }

/-- What a scan knows of the texts it has read: each began where nothing or a bracket was open and
ended there again, and plain text ended only where something opened, so no two of it stand side by
side. -/
structure Reading.Levels (reading : Reading) : Prop where
  texts : ∀ segment ∈ reading.done.segments, segment.kind = .plain →
    ∃ stop : Cursor, Cursor.Reaches {} segment.raw.toList stop ∧ stop.At 0 false
  groups : ∀ segment ∈ reading.done.segments, segment.kind = .action →
    ∃ stop : Cursor, Cursor.bracketed.Reaches segment.raw.toList stop ∧ stop.At 1 false
  inside : reading.cursor.opener = ['['] →
    Cursor.bracketed.Reaches reading.opened.reverse reading.cursor
  apart : Segment.Apart reading.done.segments
  last : ∀ segment ∈ reading.done.segments.getLast?, segment.kind = .plain →
    reading.cursor.opener ≠ []

namespace Reading

variable {reading : Reading} {ch : Char}

theorem levels_within (levels : reading.Levels) (within : reading.cursor.boundary? ch = none) :
    (reading.step ch).Levels := by
  have opener := Cursor.opener_of_within within
  rw [step_within within]
  refine ⟨levels.texts, levels.groups, fun bracket => ?_, levels.apart, ?_⟩
  · rw [List.reverse_cons]
    exact (levels.inside (opener ▸ bracket)).concat within
  · intro segment last plain
    rw [opener]
    exact levels.last segment last plain

/-- A segment that is cut off stands apart from the one before it. -/
theorem Levels.apart_cut {kind : SegmentKind} (levels : reading.Levels)
    (piece : reading.cursor.Ends ch kind) (position : Nat) :
    Segment.Apart
      (reading.done.segments ++ (Scanned.cut kind reading.opened position {}).segments) := by
  rcases Scanned.segments_cut_cases kind reading.opened position with ⟨none, _⟩ | one
  · rw [none, List.append_nil]
    exact levels.apart
  · rw [one]
    apply List.isChain_append.mpr
    refine ⟨levels.apart, List.isChain_singleton _, ?_⟩
    intro segment last next first plain nextPlain
    cases Option.some.inj first
    cases nextPlain
    exact levels.last segment last plain piece.before.opener

theorem levels_boundary {kind : SegmentKind} (cuts : reading.Cuts) (levels : reading.Levels)
    (ends : reading.cursor.boundary? ch = some kind) : (reading.step ch).Levels := by
  have piece := Cursor.ends_of_boundary ends
  have cut (segment : Segment)
      (member : segment ∈ (Scanned.cut kind reading.opened reading.cursor.position {}).segments) :
      segment = ⟨kind, .ofList reading.opened.reverse⟩ := Scanned.eq_of_mem_cut member
  rw [step_boundary ends]
  refine ⟨List.forall_mem_append.mpr ⟨levels.texts, fun segment member plain => ?_⟩,
    List.forall_mem_append.mpr ⟨levels.groups, fun segment member action => ?_⟩,
    fun bracket => ?_, levels.apart_cut piece _, ?_⟩
  · cases cut segment member
    cases plain
    have before := piece.before
    rw [String.toList_ofList]
    exact ⟨_, cuts.outside before.inTag (le_of_eq before.depth), before⟩
  · cases cut segment member
    cases action
    cases piece with
    | actionCloses before =>
      rw [String.toList_ofList]
      exact ⟨_, levels.inside before.opener, before⟩
  · cases piece with
    | actionOpens _ after => exact after.eq ▸ .nil Cursor.bracketed _
    | actionCloses _ after | tagOpens _ after | tagCloses _ after =>
      rw [after.opener] at bracket
      contradiction
  · intro segment last plain
    rcases Scanned.segments_cut_cases kind reading.opened reading.cursor.position with
      ⟨_, rfl⟩ | one
    · exact piece.opens
    · simp only [Scanned.followedBy, one, List.getLast?_concat, Option.mem_some_iff] at last
      subst last
      cases plain
      exact piece.opens

theorem levels_step (cuts : reading.Cuts) (levels : reading.Levels) (ch : Char) :
    (reading.step ch).Levels := by
  cases ends : reading.cursor.boundary? ch with
  | none => exact levels_within levels ends
  | some kind => exact levels_boundary cuts levels ends

theorem levels_upTo (chars : List Char) : (upTo chars).Levels := by
  induction chars using List.reverseRecOn with
  | nil =>
    exact ⟨List.forall_mem_nil _, List.forall_mem_nil _, fun bracket => absurd bracket (by decide),
      List.IsChain.nil, fun segment last => absurd last (Option.not_mem_none segment)⟩
  | append_singleton chars ch ih =>
    rw [upTo_concat]
    exact levels_step (cuts_upTo chars) ih ch

end Reading

namespace Segment

variable {raw : String}

/-- Text that a scan takes as a whole and that leads nowhere is a text around groups. -/
theorem isPart_text {stop : Cursor} (nonempty : raw ≠ "")
    (reaches : Cursor.Reaches {} raw.toList stop) (stands : stop.At 0 false) :
    IsPart ⟨.plain, raw⟩ := by
  obtain ⟨unbroken, position, rfl⟩ := reaches
  have start : ({} : Cursor).At (0 + -1 * (0 : Nat)) false := ⟨rfl, rfl, rfl⟩
  have returns : (Cursor.after {} raw.toList).At 0 false :=
    ⟨stands.depth, stands.inTag, stands.escaped⟩
  exact .text nonempty (Cursor.counts_outside.nests_of_unbroken start unbroken returns)
    ((Cursor.escaped_after rfl _).symm.trans returns.escaped)

/-- So is the text of an action a group. -/
theorem isPart_group {stop : Cursor} (reaches : Cursor.bracketed.Reaches raw.toList stop)
    (stands : stop.At 1 false) : IsPart (.action raw) := by
  obtain ⟨unbroken, position, rfl⟩ := reaches
  have start : Cursor.bracketed.At (1 + 1 * (0 : Nat)) false := ⟨rfl, rfl, rfl⟩
  have returns : (Cursor.bracketed.after raw.toList).At 1 false :=
    ⟨stands.depth, stands.inTag, stands.escaped⟩
  exact .group (Cursor.counts_within.nests_of_unbroken start unbroken returns)
    ((Cursor.escaped_after rfl _).symm.trans returns.escaped)

/-- A text in which no tag is found, and which a scan ends outside of brackets, falls into what the
scan finds. -/
theorem parted_segments (closed : (Reading.upTo raw.toList).cursor.At 0 false)
    (untagged : ∀ segment ∈ (Scanned.ofRule raw).segments, segment.kind ≠ .tag) :
    Parted raw (Scanned.ofRule raw).segments := by
  have accounts := Reading.accounts_upTo raw.toList
  have levels := Reading.levels_upTo raw.toList
  have cuts := Reading.cuts_upTo raw.toList
  have segments : (Scanned.ofRule raw).segments = _ :=
    (congrArg Scanned.segments (Reading.ofRule_eq_finish raw)).trans (Reading.segments_finish _)
  have nonempty := @nonempty_of_plain raw
  refine ⟨?_, ?_, ?_⟩
  · have whole := congrArg String.ofList accounts.text
    rw [closed.opener, String.ofList_toList] at whole
    rw [segments, rule_append, rule_plainOf]
    simpa using whole.symm
  · rintro ⟨kind, text⟩ member
    have known := member
    rw [segments] at known
    cases kind with
    | tag => exact absurd rfl (untagged _ member)
    | action =>
      rcases List.mem_append.mp known with finished | last
      · obtain ⟨stop, reaches, stands⟩ := levels.groups _ finished rfl
        exact isPart_group reaches stands
      · cases (eq_of_mem_plainOf last).2
    | plain =>
      rcases List.mem_append.mp known with finished | last
      · obtain ⟨stop, reaches, stands⟩ := levels.texts _ finished rfl
        exact isPart_text (nonempty _ member rfl) reaches stands
      · cases (eq_of_mem_plainOf last).2
        have reaches := cuts.outside closed.inTag (le_of_eq closed.depth)
        exact isPart_text (nonempty _ member rfl) (by rwa [String.toList_ofList]) closed
  · rw [segments]
    refine List.isChain_append.mpr ⟨levels.apart, ?_, ?_⟩
    · cases (Reading.upTo raw.toList).opened.reverse with
      | nil => exact List.IsChain.nil
      | cons ch rest => exact List.isChain_singleton _
    · intro segment last _ _ plain
      exact absurd closed.opener (levels.last segment last plain)

end Segment

/-- A text is its pieces with the mark put back between them. -/
theorem Text.intercalate_split (mark : Char) (text : String) :
    (String.singleton mark).intercalate (split mark text) = text := by
  apply String.toList_injective
  have pieces : (split mark text).map String.toList = text.toList.splitOn mark := by
    simp [split, Function.comp_def]
  rw [String.toList_intercalate, pieces, String.toList_singleton, List.intercalate_splitOn]

theorem Text.split_ne_nil (mark : Char) (text : String) : split mark text ≠ [] := by
  simp [split, List.splitOn_ne_nil]

namespace TagHead

variable {raw : String}

/-- With one plain text or none, a head is read, and its symbol and modifiers make up that text. -/
theorem exists_parse (single : (Scanned.ofRule raw).plainTexts.length < 2) :
    ∃ head, parse raw = .ok head ∧ head.preactions = (Scanned.ofRule raw).enclosedTexts ∧
      ".".intercalate (head.symbol :: head.modifiers) =
        String.join (Scanned.ofRule raw).plainTexts := by
  have short : (Scanned.ofRule raw).plainTexts.length = 0 ∨
      (Scanned.ofRule raw).plainTexts.length = 1 := by omega
  rcases short with none | one
  · rw [List.length_eq_zero_iff] at none
    have parsed : parse raw = .ok ⟨"", [], (Scanned.ofRule raw).enclosedTexts,
        (Scanned.ofRule raw).problems⟩ := by
      simp only [parse, none]
    refine ⟨_, parsed, preactions_of_parse parsed, ?_⟩
    rw [none]
    rfl
  · obtain ⟨main, one⟩ := List.length_eq_one_iff.mp one
    obtain ⟨symbol, modifiers, pieces⟩ := List.exists_cons_of_ne_nil (Text.split_ne_nil '.' main)
    have parsed : parse raw = .ok ⟨symbol, modifiers, (Scanned.ofRule raw).enclosedTexts,
        (Scanned.ofRule raw).problems⟩ := by
      simp only [parse, one, pieces]
    refine ⟨_, parsed, preactions_of_parse parsed, ?_⟩
    have whole := Text.intercalate_split '.' main
    rw [pieces] at whole
    rw [one, String.join_cons, String.join_nil, String.append_empty]
    exact whole

/-- With more than one plain text, a head is ambiguous. -/
theorem parse_of_plainTexts (several : 2 ≤ (Scanned.ofRule raw).plainTexts.length) :
    parse raw = .error ⟨raw⟩ := by
  match plain : (Scanned.ofRule raw).plainTexts with
  | [] | [_] => simp [plain] at several
  | _ :: _ :: _ => simp only [parse, plain]

end TagHead

/-- The text of a tag, scanned by itself, holds no tag, and all that can be wrong with it is an
empty action. It falls into bracket groups that open outside of all brackets and the texts around
them, in one way only. With two texts or more it is ambiguous, and so is the tag. Otherwise it is
read: its actions are the bodies of the groups, in order, and its symbol and modifiers, with the
dots put back between them, are the text that is left without the groups. -/
theorem parse_of_tag {rule raw : String}
    (tag : ⟨.tag, raw⟩ ∈ (Scanned.ofRule rule).segments) :
    (∀ segment ∈ (Scanned.ofRule raw).segments, segment.kind ≠ .tag) ∧
      (∀ problem ∈ (Scanned.ofRule raw).problems, ∃ position, problem = .emptyAction position) ∧
      ∃ parts, Segment.Parted raw parts ∧
        (∀ others, Segment.Parted raw others → others = parts) ∧
        let texts := (parts.filter (·.kind == .plain)).map (·.raw)
        let bodies := (parts.filter (·.kind == .action)).map (·.raw)
        (2 ≤ texts.length → TagHead.parse raw = .error ⟨raw⟩) ∧
          (texts.length < 2 → ∃ head, TagHead.parse raw = .ok head ∧ head.preactions = bodies ∧
            ".".intercalate (head.symbol :: head.modifiers) = String.join texts) := by
  obtain ⟨stop, reaches, stands⟩ := Cursor.tagged_of_tag tag
  have untagged : ∀ segment ∈ (Scanned.ofRule raw).segments, segment.kind ≠ .tag := by
    rw [Reading.ofRule_eq_finish, Reading.segments_finish]
    refine List.forall_mem_append.mpr ⟨Cursor.tagless_upTo reaches.1, fun segment last => ?_⟩
    rw [(Segment.eq_of_mem_plainOf last).2]
    exact SegmentKind.noConfusion
  have parted := Segment.parted_segments (Cursor.untagged_of_tagged reaches stands) untagged
  have bodies : (Scanned.ofRule raw).segments.filter (·.kind == .action) =
      (Scanned.ofRule raw).segments.filter (·.kind != .plain) := by
    apply List.filter_congr
    intro segment member
    have noTag := untagged segment member
    cases kind : segment.kind with
    | tag => exact absurd kind noTag
    | plain | action => rfl
  refine ⟨untagged, fun problem => emptyAction_of_tag tag, _, parted,
    fun others other => (other.eq_segments reaches.1).symm, TagHead.parse_of_plainTexts, ?_⟩
  rw [bodies]
  exact TagHead.exists_parse

/-- A group with a group and marks in it, an empty group, and a text in which a bracket closes
before one opens. -/
theorem parse_of_tag_vault :
    let raw := "[x:[y]#n#][]]k[.s"
    let parts : List Segment := [.action "x:[y]#n#", .action "", ⟨.plain, "]k[.s"⟩]
    ⟨.tag, raw⟩ ∈ (Scanned.ofRule "a#[x:[y]#n#][]]k[.s#").segments ∧ Segment.Parted raw parts ∧
      (∀ others, Segment.Parted raw others → others = parts) ∧
      ∃ head, TagHead.parse raw = .ok head ∧ head.preactions = ["x:[y]#n#", ""] ∧
        ".".intercalate (head.symbol :: head.modifiers) = "]k[.s" := by
  intro raw parts
  have tag : ⟨.tag, raw⟩ ∈ (Scanned.ofRule "a#[x:[y]#n#][]]k[.s#").segments := by
    decide +kernel
  have parted : Segment.Parted raw parts := by
    refine ⟨by decide +kernel, ?_, by simp [parts, Segment.Apart, Segment.action]⟩
    simp only [parts, List.forall_mem_cons]
    exact ⟨.group (by decide +kernel) (by decide +kernel), .group (by decide) (by decide),
      .text (by decide) (by decide +kernel) (by decide +kernel), List.forall_mem_nil _⟩
  obtain ⟨_, _, found, _, unique, _, parsed⟩ := parse_of_tag tag
  obtain rfl := unique parts parted
  obtain ⟨head, ok, preactions, joined⟩ := parsed (by decide +kernel)
  exact ⟨tag, parted, unique, head, ok, preactions, joined⟩

end TextGrammar
