import Mathlib
import TextGrammar.Format.JsonReader
import TextGrammar.Format.JsonWriter

/-! # What the JSON reader makes of written texts

Characters take the reader from one state of its assembly to another: blanks change nothing, marks
and quoted texts are tokens. Moves follow each other as their characters do, so a text that is
written in parts is read in parts. They know no limit of nesting; the reader's own admits them all
where the text itself nests no deeper.
-/

namespace TextGrammar.Json

/-! ## Quoted texts -/

section

variable (rest : List Char)

/-- A control character that has no letter of its own is written by its number. -/
theorem textCodes?_control {code : Nat} (control : code < 0x20) :
    textCodes? (['\\', 'u', '0', '0'] ++
        [Nat.digitChar (code / 16), Nat.digitChar (code % 16)] ++ rest) =
      (textCodes? rest).map fun read => (code :: read.1, read.2) := by
  have number : hexNumber? ['0', '0', Nat.digitChar (code / 16), Nat.digitChar (code % 16)] =
      some code := by
    revert code
    decide
  simp only [List.cons_append, List.nil_append, textCodes?, number]
  cases textCodes? rest <;> rfl

/-- A letter after a backslash stands for one character. -/
theorem textCodes?_letter {letter : Char} {code : Nat} (escape : shortEscape? letter = some code) :
    textCodes? (['\\', letter] ++ rest) =
      (textCodes? rest).map fun read => (code :: read.1, read.2) := by
  have short : letter ≠ 'u' := by
    rintro rfl
    contradiction
  rw [List.cons_append, List.singleton_append, textCodes?.eq_4]
  · rw [escape]
    cases textCodes? rest <;> rfl
  · intro a b c d after same
    cases same
    contradiction

/-- A character is read back from the way it stands in a text, whatever follows. -/
theorem textCodes?_writtenChar (ch : Char) :
    textCodes? (writtenChar ch ++ rest) =
      (textCodes? rest).map fun read => (ch.toNat :: read.1, read.2) := by
  rw [writtenChar]
  split_ifs with escaped backspace feed line return' tab control
  · rcases escaped with rfl | rfl <;> exact textCodes?_letter rest rfl
  · exact backspace ▸ textCodes?_letter rest rfl
  · exact feed ▸ textCodes?_letter rest rfl
  · exact line ▸ textCodes?_letter rest rfl
  · exact return' ▸ textCodes?_letter rest rfl
  · exact tab ▸ textCodes?_letter rest rfl
  · exact textCodes?_control rest control
  · obtain ⟨quote, backslash⟩ := not_or.mp escaped
    rw [List.singleton_append, textCodes?.eq_5, if_neg (not_or.mpr ⟨backslash, control⟩)]
    · cases textCodes? rest <;> rfl
    · exact quote
    · exact fun _ _ _ _ _ same => absurd same backslash
    · exact fun _ _ same => absurd same backslash

/-- A text is read up to the quote that closes it. -/
theorem textCodes?_written (chars : List Char) :
    textCodes? (chars.flatMap writtenChar ++ '"' :: rest) = some (chars.map Char.toNat, rest) := by
  induction chars with
  | nil => rfl
  | cons ch chars ih =>
    rw [List.flatMap_cons, List.append_assoc, textCodes?_writtenChar, ih]
    rfl

end

/-- No character has the code of half a surrogate pair. -/
theorem surrogate_toNat (ch : Char) :
    isHighSurrogate ch.toNat = false ∧ isLowSurrogate ch.toNat = false := by
  have valid : ch.toNat < 0xD800 ∨ 0xDFFF < ch.toNat := ch.valid.imp_right And.left
  simp only [isHighSurrogate, isLowSurrogate, Bool.and_eq_false_iff, decide_eq_false_iff_not]
  omega

theorem joinCodes?_toNat (chars : List Char) : joinCodes? (chars.map Char.toNat) = some chars := by
  induction chars with
  | nil => rfl
  | cons ch chars ih =>
    obtain ⟨high, low⟩ := surrogate_toNat ch
    cases chars with
    | nil =>
      simp only [List.map_cons, List.map_nil, joinCodes?, high, low, Bool.or_self,
        Bool.false_eq_true, ↓reduceIte, Char.ofNat_toNat]
    | cons next chars =>
      rw [List.map_cons] at ih
      simp only [List.map_cons, joinCodes?, high, low, ih, Bool.false_eq_true, ↓reduceIte,
        Option.map_some, Char.ofNat_toNat]

/-- A quoted text is read back, whatever follows. -/
theorem token?_writtenText (text : String) (rest : List Char) :
    token? (writtenText text ++ rest) = some (.atom (.text text), rest) := by
  rw [writtenText, List.cons_append, List.cons_append, List.append_assoc, List.singleton_append,
    token?]
  simp only [textCodes?_written, joinCodes?_toNat, Option.bind_eq_bind, Option.bind_some,
    String.ofList_toList]

/-! ## Nesting -/

/-- Where a character of a JSON text stands. -/
inductive Region
  | between
  | quoted
  /-- Right after a backslash in a quoted text. -/
  | escaped

/-- How many lists and tables are open at a point of a text, and how many were at most. -/
structure Scan where
  region : Region := .between
  depth : Nat := 0
  deepest : Nat := 0

/-- Come to another depth. -/
def Scan.moveTo (scan : Scan) (depth : Nat) : Scan :=
  { scan with depth, deepest := max scan.deepest depth }

/-- Go on by a character. Brackets and braces count where they stand between texts. -/
def Scan.next (scan : Scan) (ch : Char) : Scan :=
  match scan.region with
  | .escaped => { scan with region := .quoted }
  | .quoted =>
    if ch = '\\' then { scan with region := .escaped }
    else if ch = '"' then { scan with region := .between }
    else scan
  | .between =>
    if ch = '"' then { scan with region := .quoted }
    else if ch = '[' ∨ ch = '\x7b' then scan.moveTo (scan.depth + 1)
    else if ch = ']' ∨ ch = '\x7d' then scan.moveTo (scan.depth - 1)
    else scan

/-- How deep the lists and tables of a JSON text nest. -/
def nesting (text : String) : Nat :=
  (text.toList.foldl Scan.next {}).deepest

namespace Scan

variable {scan : Scan}

theorem deepest_next (scan : Scan) (ch : Char) : scan.deepest ≤ (scan.next ch).deepest := by
  rw [next]
  split
  · exact le_rfl
  · split_ifs <;> exact le_rfl
  · split_ifs
    · exact le_rfl
    · exact le_max_left _ _
    · exact le_max_left _ _
    · exact le_rfl

theorem deepest_foldl (scan : Scan) (chars : List Char) :
    scan.deepest ≤ (chars.foldl next scan).deepest := by
  induction chars generalizing scan with
  | nil => exact le_rfl
  | cons ch rest ih => exact (scan.deepest_next ch).trans (ih _)

theorem next_blank {ch : Char} (between : scan.region = .between) (blank : isBlank ch = true) :
    scan.next ch = scan := by
  simp only [isBlank, Bool.or_eq_true, beq_iff_eq] at blank
  rcases blank with ((rfl | rfl) | rfl) | rfl <;> simp [next, between]

/-- A character of a quoted text leaves the scan as it was. -/
theorem foldl_writtenChar (quoted : scan.region = .quoted) (ch : Char) :
    (writtenChar ch).foldl next scan = scan := by
  obtain ⟨region, depth, deepest⟩ := scan
  subst quoted
  have plain {letter : Char} (quote : letter ≠ '"') (backslash : letter ≠ '\\') :
      next ⟨.quoted, depth, deepest⟩ letter = ⟨.quoted, depth, deepest⟩ :=
    (if_neg backslash).trans (if_neg quote)
  have digit {code : Nat} (small : code < 16) :
      next ⟨.quoted, depth, deepest⟩ (Nat.digitChar code) = ⟨.quoted, depth, deepest⟩ := by
    have unlike : ∀ code < 16, Nat.digitChar code ≠ '"' ∧ Nat.digitChar code ≠ '\\' := by decide
    exact plain (unlike code small).1 (unlike code small).2
  rw [writtenChar]
  split_ifs with escaped
  · rfl
  · rfl
  · rfl
  · rfl
  · rfl
  · rfl
  · next control =>
    have high := digit (show ch.toNat / 16 < 16 by omega)
    have low := digit (Nat.mod_lt ch.toNat (by omega))
    exact (congrArg (next · _) high).trans low
  · obtain ⟨quote, backslash⟩ := not_or.mp escaped
    exact plain quote backslash

/-- A quoted text nests nothing. -/
theorem foldl_writtenText (between : scan.region = .between) (text : String) :
    (writtenText text).foldl next scan = scan := by
  obtain ⟨region, depth, deepest⟩ := scan
  subst between
  have inside (chars : List Char) :
      (chars.flatMap writtenChar).foldl next ⟨.quoted, depth, deepest⟩ =
        ⟨.quoted, depth, deepest⟩ := by
    induction chars with
    | nil => rfl
    | cons ch rest ih => rw [List.flatMap_cons, List.foldl_append, foldl_writtenChar rfl, ih]
  calc (writtenText text).foldl next ⟨.between, depth, deepest⟩
    _ = next ((text.toList.flatMap writtenChar).foldl next ⟨.quoted, depth, deepest⟩) '"' :=
      List.foldl_append
    _ = ⟨.between, depth, deepest⟩ := by
      rw [inside]
      rfl

end Scan

/-! ## Moves of the reader -/

/-- Whether a value may come next. -/
inductive Expecting.Awaits : Expecting → Prop
  | value : Awaits .value
  | valueOrEnd : Awaits .valueOrEnd

/-- What a token does to the assembly, whatever the limit. -/
inductive Assembly.Step : Assembly → Token → Assembly → Prop
  | atom {expecting : Expecting} (awaits : expecting.Awaits) (value : Datum)
      (frames : List Frame) : Step ⟨expecting, frames⟩ (.atom value) ⟨.next value, frames⟩
  | openList {expecting : Expecting} (awaits : expecting.Awaits) (frames : List Frame) :
      Step ⟨expecting, frames⟩ .openList ⟨.valueOrEnd, .list [] :: frames⟩
  | openTable {expecting : Expecting} (awaits : expecting.Awaits) (frames : List Frame) :
      Step ⟨expecting, frames⟩ .openTable ⟨.key [] true, frames⟩
  | endList (items : List Datum) (frames : List Frame) :
      Step ⟨.valueOrEnd, .list items :: frames⟩ .closeList ⟨.next (.list items.reverse), frames⟩
  | endTable (entries : List (Datum × Datum)) (frames : List Frame) :
      Step ⟨.key entries true, frames⟩ .closeTable ⟨.next (.table entries.reverse), frames⟩
  | key (entries : List (Datum × Datum)) (mayEnd : Bool) (key : String) (frames : List Frame) :
      Step ⟨.key entries mayEnd, frames⟩ (.atom (.text key)) ⟨.colon entries (.text key), frames⟩
  | colon (entries : List (Datum × Datum)) (key : Datum) (frames : List Frame) :
      Step ⟨.colon entries key, frames⟩ .colon ⟨.value, .table entries key :: frames⟩
  | nextItem (value : Datum) (items : List Datum) (frames : List Frame) :
      Step ⟨.next value, .list items :: frames⟩ .comma ⟨.value, .list (value :: items) :: frames⟩
  | closeList (value : Datum) (items : List Datum) (frames : List Frame) :
      Step ⟨.next value, .list items :: frames⟩ .closeList
        ⟨.next (.list (value :: items).reverse), frames⟩
  | nextEntry (value : Datum) (entries : List (Datum × Datum)) (key : Datum)
      (frames : List Frame) :
      Step ⟨.next value, .table entries key :: frames⟩ .comma
        ⟨.key ((key, value) :: entries) false, frames⟩
  | closeTable (value : Datum) (entries : List (Datum × Datum)) (key : Datum)
      (frames : List Frame) :
      Step ⟨.next value, .table entries key :: frames⟩ .closeTable
        ⟨.next (.table ((key, value) :: entries).reverse), frames⟩

/-- How many lists and tables are open. A table whose key is awaited is not among the frames. -/
def Assembly.opened : Assembly → Nat
  | ⟨.key _ _, frames⟩ => frames.length + 1
  | ⟨.colon _ _, frames⟩ => frames.length + 1
  | ⟨_, frames⟩ => frames.length

/-- The depth that a token leads to. -/
def Token.level (depth : Nat) : Token → Nat
  | .openList => depth + 1
  | .openTable => depth + 1
  | .closeList => depth - 1
  | .closeTable => depth - 1
  | _ => depth

section

variable {before after : Assembly} {token : Token}

theorem Assembly.Step.opened (step : before.Step token after) :
    after.opened = token.level before.opened := by
  cases step with
  | atom awaits | openList awaits | openTable awaits => cases awaits <;> rfl
  | _ => rfl

/-- A limit admits a step that leaves no more open than it. -/
theorem Assembly.Step.step? {limit : Nat} (step : before.Step token after)
    (within : after.opened ≤ limit) : before.step? limit token = some after := by
  cases step with
  | atom awaits => cases awaits <;> rfl
  | openList awaits | openTable awaits => cases awaits <;> exact if_pos within
  | key _ mayEnd => cases mayEnd <;> rfl
  | _ => rfl

end

/-- Characters take the reader from one state of its assembly to another. -/
inductive Reads : List Char → Assembly → Assembly → Prop
  | done (state : Assembly) : Reads [] state state
  | blank {ch : Char} {rest : List Char} {before after : Assembly} (blank : isBlank ch = true)
      (reads : Reads rest before after) : Reads (ch :: rest) before after
  | mark {ch : Char} {token : Token} {rest : List Char} {before between after : Assembly}
      (means : mark? ch = some token) (step : before.Step token between)
      (reads : Reads rest between after) : Reads (ch :: rest) before after
  | text (text : String) {rest : List Char} {before between after : Assembly}
      (step : before.Step (.atom (.text text)) between) (reads : Reads rest between after) :
      Reads (writtenText text ++ rest) before after

theorem Reads.trans {first second : List Char} {before between after : Assembly}
    (early : Reads first before between) (late : Reads second between after) :
    Reads (first ++ second) before after := by
  induction early with
  | done _ => exact late
  | blank blank _ ih => exact .blank blank (ih late)
  | mark means step _ ih => exact .mark means step (ih late)
  | text text step _ ih =>
    rw [List.append_assoc]
    exact .text text step (ih late)

theorem token?_mark {ch : Char} {token : Token} (means : mark? ch = some token)
    (rest : List Char) : token? (ch :: rest) = some (token, rest) := by
  rw [mark?.eq_def] at means
  split at means
  all_goals first | contradiction | cases means; rfl

theorem isBlank_of_mark {ch : Char} {token : Token} (means : mark? ch = some token) :
    isBlank ch = false := by
  rw [mark?.eq_def] at means
  split at means
  all_goals first | contradiction | rfl

/-- A scan of the characters read so far counts what the assembly has open. -/
structure Scan.Follows (scan : Scan) (state : Assembly) : Prop where
  between : scan.region = .between
  depth : scan.depth = state.opened
  within : state.opened ≤ scan.deepest

namespace Scan.Follows

variable {scan : Scan} {before after : Assembly}

theorem mark {ch : Char} {token : Token} (follows : scan.Follows before)
    (means : mark? ch = some token) (step : before.Step token after) :
    (scan.next ch).Follows after := by
  obtain ⟨region, depth, deepest⟩ := scan
  obtain ⟨rfl, rfl, within⟩ := follows
  have opened := step.opened
  rw [mark?.eq_def] at means
  split at means
  all_goals cases means
  all_goals first
    | exact ⟨rfl, opened.symm, opened.symm ▸ le_max_right _ _⟩
    | exact ⟨rfl, opened.symm, opened.symm ▸ within⟩

theorem text {text : String} (follows : scan.Follows before)
    (step : before.Step (.atom (.text text)) after) : scan.Follows after := by
  have opened : after.opened = before.opened := step.opened
  exact ⟨follows.between, opened ▸ follows.depth, opened ▸ follows.within⟩

end Scan.Follows

section

variable {ch : Char} {token : Token} {rest : List Char}

/-- A step of the lexer that reads a token. -/
theorem tokensOnto?_token {later : List Char} (solid : isBlank ch = false)
    (reads : token? (ch :: rest) = some (token, later)) (read : List Token) (steps : Nat) :
    tokensOnto? read (steps + 1) (ch :: rest) = tokensOnto? (token :: read) steps later := by
  rw [tokensOnto?, if_neg (Bool.not_eq_true _ ▸ solid), reads]
  rfl

theorem tokensOnto?_blank (blank : isBlank ch = true) (read : List Token) (steps : Nat) :
    tokensOnto? read (steps + 1) (ch :: rest) = tokensOnto? read steps rest := by
  rw [tokensOnto?, if_pos blank]

end

/-- A step of the assembler that a scan of the whole text allows. -/
theorem foldlM_step {scan : Scan} {before after : Assembly} {token : Token} {rest : List Char}
    {limit : Nat} (step : before.Step token after) (follows : scan.Follows after)
    (shallow : (rest.foldl Scan.next scan).deepest ≤ limit) (tokens : List Token) :
    (token :: tokens).foldlM (Assembly.step? limit) before =
      tokens.foldlM (Assembly.step? limit) after := by
  have within : after.opened ≤ limit :=
    (follows.within.trans (Scan.deepest_foldl scan rest)).trans shallow
  rw [List.foldlM_cons, step.step? within]
  rfl

/-- The reader cuts characters into tokens that move its assembly as the characters do. -/
theorem Reads.tokens {chars : List Char} {before after : Assembly}
    (reads : Reads chars before after) : ∃ tokens : List Token,
      (∀ read steps, chars.length ≤ steps →
        tokensOnto? read steps chars = some (read.reverse ++ tokens)) ∧
      ∀ {scan : Scan} {limit : Nat}, scan.Follows before →
        (chars.foldl Scan.next scan).deepest ≤ limit →
        tokens.foldlM (Assembly.step? limit) before = some after := by
  -- By the moves. The scan goes on over all that follows, so that its deepest point bounds what is
  -- open after each of them.
  induction reads with
  | done state =>
    refine ⟨[], fun read _ _ => ?_, fun _ _ => rfl⟩
    rw [tokensOnto?, List.append_nil]
  | blank blank _ ih =>
    obtain ⟨tokens, lexed, assembled⟩ := ih
    refine ⟨tokens, fun read steps enough => ?_, fun follows shallow => ?_⟩
    · obtain ⟨steps, rfl⟩ := Nat.exists_eq_succ_of_ne_zero (Nat.ne_zero_of_lt enough)
      rw [tokensOnto?_blank blank]
      exact lexed read steps (Nat.le_of_succ_le_succ enough)
    · rw [List.foldl_cons, Scan.next_blank follows.between blank] at shallow
      exact assembled follows shallow
  | @mark _ token _ _ _ _ means step _ ih =>
    obtain ⟨tokens, lexed, assembled⟩ := ih
    refine ⟨token :: tokens, fun read steps enough => ?_, fun follows shallow => ?_⟩
    · obtain ⟨steps, rfl⟩ := Nat.exists_eq_succ_of_ne_zero (Nat.ne_zero_of_lt enough)
      rw [tokensOnto?_token (isBlank_of_mark means) (token?_mark means _),
        lexed _ steps (Nat.le_of_succ_le_succ enough), List.reverse_cons, List.append_assoc]
      rfl
    · have followed := follows.mark means step
      exact (foldlM_step step followed shallow tokens).trans (assembled followed shallow)
  | @text text rest _ _ _ step _ ih =>
    obtain ⟨tokens, lexed, assembled⟩ := ih
    refine ⟨.atom (.text text) :: tokens, fun read steps enough => ?_,
      fun follows shallow => ?_⟩
    · obtain ⟨steps, rfl⟩ := Nat.exists_eq_succ_of_ne_zero (Nat.ne_zero_of_lt enough)
      have fewer : rest.length ≤ steps := by
        have quoted : 0 < (writtenText text).length := Nat.succ_pos _
        rw [List.length_append] at enough
        omega
      have cut := tokensOnto?_token rfl (token?_writtenText text rest) read steps
      rw [lexed _ steps fewer, List.reverse_cons, List.append_assoc] at cut
      exact cut
    · rw [List.foldl_append, Scan.foldl_writtenText follows.between] at shallow
      have followed := follows.text step
      exact (foldlM_step step followed shallow tokens).trans (assembled followed shallow)

/-- A text is read as the datum that its characters move the reader to, if it nests no deeper than
the reader allows. -/
theorem read?_eq_some {text : String} {value : Datum}
    (reads : Reads text.toList {} ⟨.next value, []⟩) (shallow : nesting text ≤ maxNesting) :
    read? text = some value := by
  obtain ⟨tokens, lexed, assembled⟩ := reads.tokens
  have cut : tokens? text.toList = some tokens := lexed [] _ le_rfl
  have start : Scan.Follows {} {} := ⟨rfl, rfl, le_rfl⟩
  have joined : tokens.foldlM (Assembly.step? maxNesting) {} = some ⟨.next value, []⟩ :=
    assembled start shallow
  rw [read?, cut, Option.bind_some, assemble?, joined]
  rfl

/-- A step that a limit admits is the same under a greater one. -/
theorem Assembly.step?_mono {low high : Nat} (wider : low ≤ high) {before after : Assembly}
    {token : Token} (steps : before.step? low token = some after) :
    before.step? high token = some after := by
  have start {frames : List Frame} (begins : step?.start low frames token = some after) :
      step?.start high frames token = some after := by
    cases token with
    | openList | openTable =>
      simp only [step?.start, Option.ite_none_right_eq_some] at begins ⊢
      exact ⟨begins.1.trans_le wider, begins.2⟩
    | _ => exact begins
  rw [step?.eq_def] at steps ⊢
  split at steps
  case h_1 | h_3 => exact start steps
  all_goals exact steps

theorem Assembly.foldlM_mono {low high : Nat} (wider : low ≤ high) {before after : Assembly}
    {tokens : List Token} (steps : tokens.foldlM (Assembly.step? low) before = some after) :
    tokens.foldlM (Assembly.step? high) before = some after := by
  induction tokens generalizing before with
  | nil => exact steps
  | cons token rest ih =>
    simp only [List.foldlM_cons, Option.bind_eq_bind, Option.bind_eq_some_iff] at steps ⊢
    obtain ⟨between, first, later⟩ := steps
    exact ⟨between, step?_mono wider first, ih later⟩

/-- However deep a text nests, if it is read at all, it is read as what its characters move the
reader to. -/
theorem eq_of_read? {text : String} {value read : Datum}
    (reads : Reads text.toList {} ⟨.next value, []⟩) (success : read? text = some read) :
    read = value := by
  obtain ⟨tokens, lexed, assembled⟩ := reads.tokens
  have cut : tokens? text.toList = some tokens := lexed [] _ le_rfl
  have start : Scan.Follows {} {} := ⟨rfl, rfl, le_rfl⟩
  simp only [read?, cut, Option.bind_some, assemble?, Option.bind_eq_bind,
    Option.bind_eq_some_iff] at success
  obtain ⟨state, joined, ends⟩ := success
  have wide := Assembly.foldlM_mono (le_max_left maxNesting (nesting text)) joined
  have known := assembled start (le_max_right maxNesting (nesting text))
  cases wide.symm.trans known
  exact (Option.some.inj ends).symm

end TextGrammar.Json
