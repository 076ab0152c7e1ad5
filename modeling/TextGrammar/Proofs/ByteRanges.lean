import TextGrammar.English
import TextGrammar.Proofs.Reading
import TextGrammar.Rule.TagHead

/-! # Cutting texts by their bytes

Texts are taken apart as lists of characters. The same cuts can be made by positions alone, counted
in bytes: the scan of a rule carries the position at which its open segment starts from character to
character, a modifier is cut at the positions of its parentheses, and a word before its last byte.
A range of bytes can be cut out of a text only if it lies within the text and divides none of its
characters. The ranges that come up here all do, in any text, and cutting them out gives what the
lists of characters give. What carries this is that every delimiter, and the "y" that an ending
takes the place of, is a single byte.
-/

namespace TextGrammar

namespace Text

/-- A range of bytes lies within a text, with both its ends between characters. -/
def Fits (text : String) (start stop : Nat) : Prop :=
  start ≤ stop ∧ (⟨start⟩ : String.Pos.Raw).IsValid text ∧ (⟨stop⟩ : String.Pos.Raw).IsValid text

instance (text : String) (start stop : Nat) : Decidable (Fits text start stop) :=
  inferInstanceAs (Decidable (_ ∧ _))

theorem Fits.le {text : String} {start stop : Nat} (fits : Fits text start stop) :
    text.pos ⟨start⟩ fits.2.1 ≤ text.pos ⟨stop⟩ fits.2.2 :=
  fits.1

/-- Cut out a range of bytes, from the first one to the one before the last position. There is no
text in a range that does not fit. -/
def bytes? (text : String) (start stop : Nat) : Option String :=
  if fits : Fits text start stop then
    some (text.slice (text.pos ⟨start⟩ fits.2.1) (text.pos ⟨stop⟩ fits.2.2) fits.le).copy
  else none

/-- The position of the first occurrence of a character, in bytes. -/
def position? (mark : Char) (text : String) : Option Nat :=
  (cut? mark text).map (·.1.utf8ByteSize)

/-- The bytes of a part of a text are that part. -/
theorem bytes?_append (before piece after : String) :
    bytes? (before ++ piece ++ after) before.utf8ByteSize
      (before.utf8ByteSize + piece.utf8ByteSize) = some piece := by
  have starts : (⟨before.utf8ByteSize⟩ : String.Pos.Raw).IsValid (before ++ piece ++ after) :=
    String.Pos.Raw.isValid_iff_exists_append.mpr
      ⟨before, piece ++ after, String.append_assoc, rfl⟩
  have stops : (⟨before.utf8ByteSize + piece.utf8ByteSize⟩ : String.Pos.Raw).IsValid
      (before ++ piece ++ after) :=
    String.Pos.Raw.isValid_iff_exists_append.mpr
      ⟨before ++ piece, after, rfl, String.Pos.Raw.ext String.utf8ByteSize_append.symm⟩
  have fits : Fits (before ++ piece ++ after) before.utf8ByteSize
      (before.utf8ByteSize + piece.utf8ByteSize) := ⟨Nat.le_add_right _ _, starts, stops⟩
  rw [bytes?, dif_pos fits, Option.some.injEq, ← String.toByteArray_inj,
    String.toByteArray_copy_slice]
  simp only [String.offset_pos, String.toByteArray_append, ByteArray.append_assoc]
  calc
    _ = (piece.toByteArray ++ after.toByteArray).extract 0 piece.toByteArray.size :=
      ByteArray.extract_append_size_add (i := 0)
    _ = piece.toByteArray := ByteArray.extract_append_eq_left rfl

-- The "é" is two bytes long.
example : bytes? "né" 1 3 = some "é" ∧ bytes? "né" 0 2 = none := by decide

/-- The bytes of the beginning of a text are that beginning. -/
theorem bytes?_front (piece after : String) :
    bytes? (piece ++ after) 0 piece.utf8ByteSize = some piece := by
  have cut := bytes?_append "" piece after
  rwa [String.empty_append, String.utf8ByteSize_empty, Nat.zero_add] at cut

/-- The bytes of the end of a text are that end. -/
theorem bytes?_back (before piece : String) :
    bytes? (before ++ piece) before.utf8ByteSize (before ++ piece).utf8ByteSize = some piece := by
  have cut := bytes?_append before piece ""
  rwa [String.append_empty, ← String.utf8ByteSize_append] at cut

theorem size_pos {text : String} (nonempty : text ≠ "") : 0 < text.utf8ByteSize :=
  Nat.pos_of_ne_zero fun empty => nonempty (String.utf8ByteSize_eq_zero_iff.mp empty)

end Text

namespace Scanned

/-- Put a segment, given by its bytes, before the rest of a scan. A segment without text is not cut
out of anything. -/
def cutBytes? (kind : SegmentKind) (rule : String) (start stop : Nat) (rest : Scanned) :
    Option Scanned :=
  (if start < stop then Text.bytes? rule start stop else some "").map fun raw =>
    .cut kind raw.toList.reverse start rest

/-- The open segment is cut out of the rule as it was read. -/
theorem cutBytes?_eq (kind : SegmentKind) (read reversed rest : List Char) (later : Scanned) :
    cutBytes? kind (.ofList (read ++ reversed.reverse ++ rest)) (String.ofList read).utf8ByteSize
      (String.ofList (read ++ reversed.reverse)).utf8ByteSize later =
      some (cut kind reversed (String.ofList (read ++ reversed.reverse)).utf8ByteSize later) := by
  cases reversed with
  | nil => simp [cutBytes?]
  | cons ch others =>
    have size := String.utf8ByteSize_append (s := .ofList read)
      (t := .ofList (ch :: others).reverse)
    have text := Text.bytes?_append (.ofList read) (.ofList (ch :: others).reverse) (.ofList rest)
    have longer := Text.size_pos (text_ne_empty ch others)
    simp only [← String.ofList_append] at size text
    rw [cutBytes?, size, if_pos (by omega), text]
    simp [cut]

end Scanned

/-- Scan what is left of a rule, with the position at which the open segment starts. -/
def Cursor.scanBytes? (rule : String) (cursor : Cursor) (start : Nat) : List Char → Option Scanned
  | [] => Scanned.cutBytes? .plain rule start rule.utf8ByteSize ⟨[], cursor.leftOpen⟩
  | ch :: rest =>
    match cursor.boundary? ch with
    | some kind => do
      let behind ← (cursor.step ch).scanBytes? rule (cursor.position + 1) rest
      Scanned.cutBytes? kind rule start cursor.position behind
    | none => (cursor.step ch).scanBytes? rule start rest

/-- A character that ends a segment is a single byte. -/
theorem Cursor.Ends.utf8Size {cursor : Cursor} {ch : Char} {kind : SegmentKind}
    (ends : cursor.Ends ch kind) : ch.utf8Size = 1 := by
  cases ends <;> rfl

/-- Positions carried along lead to the same segments as the characters themselves. -/
theorem Cursor.scanBytes?_eq {rule : String} (cursor : Cursor) (read reversed rest : List Char)
    (whole : rule = .ofList (read ++ reversed.reverse ++ rest))
    (stands : cursor.position = (String.ofList (read ++ reversed.reverse)).utf8ByteSize) :
    cursor.scanBytes? rule (String.ofList read).utf8ByteSize rest =
      some (cursor.scan reversed rest) := by
  induction rest generalizing cursor read reversed with
  | nil =>
    have last := Scanned.cutBytes?_eq .plain read reversed [] ⟨[], cursor.leftOpen⟩
    rw [List.append_nil] at whole last
    rw [scanBytes?, scan, stands, whole, last]
  | cons ch rest ih =>
    have next : (cursor.step ch).position =
        (String.ofList (read ++ reversed.reverse ++ [ch])).utf8ByteSize := by
      simp only [position_step, stands, String.utf8ByteSize_ofList, String.utf8Len_append,
        String.utf8Len_cons, String.utf8Len_nil, Nat.zero_add]
    rw [List.append_cons] at whole
    cases ends : cursor.boundary? ch with
    | none =>
      -- The segment stays open, and starts where it did.
      rw [List.append_assoc read, ← List.reverse_cons] at whole next
      rw [scan_within ends, ← ih (cursor.step ch) read (ch :: reversed) whole next]
      simp only [scanBytes?, ends]
    | some kind =>
      -- The next segment starts one byte further on.
      have start : (String.ofList (read ++ reversed.reverse ++ [ch])).utf8ByteSize =
          cursor.position + 1 := by
        rw [← next, position_step, (ends_of_boundary ends).utf8Size]
      have behind := ih (cursor.step ch) (read ++ reversed.reverse ++ [ch]) []
      rw [List.reverse_nil, List.append_nil, start] at behind
      have segment := Scanned.cutBytes?_eq kind read reversed (ch :: rest)
        ((cursor.step ch).scan [] rest)
      rw [List.append_cons, ← whole, ← stands] at segment
      rw [scan_boundary ends, ← segment]
      simp only [scanBytes?, ends, behind whole (next.trans start)]
      rfl

/-- The segments of a rule, cut out by their bytes. -/
def Scanned.ofBytes? (rule : String) : Option Scanned :=
  Cursor.scanBytes? rule {} 0 rule.toList

theorem Scanned.ofBytes?_eq (rule : String) : ofBytes? rule = some (ofRule rule) :=
  Cursor.scanBytes?_eq {} [] [] rule.toList String.ofList_toList.symm rfl

/-- Read a modifier, its name and its parameters cut out by the positions of the parentheses. A
parenthesis at the very front has no name before it. -/
def ModifierCall.ofBytes? (text : String) : Option ModifierCall :=
  match (Text.position? '(' text).filter (0 < ·) with
  | none => some ⟨text, []⟩
  | some opening => do
    let behind ← Text.bytes? text (opening + 1) text.utf8ByteSize
    match Text.position? ')' behind with
    | none => some ⟨text, []⟩
    | some size =>
      let inner ← Text.bytes? text (opening + 1) (opening + 1 + size)
      if inner = "" then some ⟨text, []⟩
      else
        let name ← Text.bytes? text 0 opening
        some ⟨name, Text.split ',' inner⟩

theorem ModifierCall.ofBytes?_eq (text : String) : ofBytes? text = some (parse text) := by
  cases opens : Text.cut? '(' text with
  | none => simp only [ofBytes?, parse, Text.position?, opens, Option.map_none, Option.filter_none]
  | some parts =>
    obtain ⟨name, rest⟩ := parts
    have position : Text.position? '(' text = some name.utf8ByteSize := by
      rw [Text.position?, opens, Option.map_some]
    by_cases nameless : name = ""
    · subst nameless
      simp only [ofBytes?, parse, position, opens]
      cases Text.cut? ')' rest <;> rfl
    have named : (some name.utf8ByteSize).filter (0 < ·) = some name.utf8ByteSize :=
      Option.filter_some_pos (decide_eq_true (Text.size_pos nameless))
    have whole : text = name ++ String.singleton '(' ++ rest := Text.eq_of_cut? opens
    have behind : Text.bytes? text (name.utf8ByteSize + 1) text.utf8ByteSize = some rest := by
      have back := Text.bytes?_back (name ++ String.singleton '(') rest
      rwa [← whole, String.utf8ByteSize_append] at back
    cases closes : Text.cut? ')' rest with
    | none =>
      have unclosed : Text.position? ')' rest = none := by rw [Text.position?, closes]; rfl
      simp only [ofBytes?, parse, position, named, opens, behind, Option.bind_eq_bind,
        Option.bind_some, unclosed, closes]
    | some parts =>
      obtain ⟨inner, after⟩ := parts
      have closed : Text.position? ')' rest = some inner.utf8ByteSize := by
        rw [Text.position?, closes, Option.map_some]
      have middle : Text.bytes? text (name.utf8ByteSize + 1)
          (name.utf8ByteSize + 1 + inner.utf8ByteSize) = some inner := by
        have parts : name ++ String.singleton '(' ++ inner ++ (String.singleton ')' ++ after) =
            text := by
          rw [whole, Text.eq_of_cut? closes]
          simp only [String.append_assoc]
        have cut := Text.bytes?_append (name ++ String.singleton '(') inner
          (String.singleton ')' ++ after)
        rwa [parts, String.utf8ByteSize_append] at cut
      have front : Text.bytes? text 0 name.utf8ByteSize = some name := by
        rw [whole, String.append_assoc]
        exact Text.bytes?_front name _
      simp only [ofBytes?, parse, position, named, opens, behind, Option.bind_eq_bind,
        Option.bind_some, closed, closes, middle, front, nameless, false_or]
      split <;> rfl

namespace English

/-- Put an ending in the place of a final "y" that no vowel precedes, which is cut off as the last
byte of the text. Any other text is spelled in another way. -/
def endBytes? (ending other text : String) : Option String :=
  if (stemOfY? text.toList.reverse).isSome then
    (Text.bytes? text 0 (text.utf8ByteSize - 1)).map (· ++ ending)
  else some other

/-- The plural, its stem cut out by its bytes. -/
def pluralBytes? (text : String) : Option String :=
  endBytes? "ies" (if text.toList.reverse.head?.any (['s', 'h', 'x'].contains ·) then text ++ "es"
    else text ++ "s") text

/-- The past tense, its stem cut out by its bytes. -/
def pastTenseBytes? (text : String) : Option String :=
  endBytes? "ied" (if text.toList.reverse.head? = some 'e' then text ++ "d" else text ++ "ed") text

/-- The plural of the first word, its stem cut out by its bytes. -/
def firstPluralBytes? (text : String) : Option String :=
  match Text.cut? ' ' text with
  | some (first, rest) => (pluralBytes? first).map (· ++ " " ++ rest)
  | none => pluralBytes? text

theorem eq_of_stemOfY? {text stem : String} (found : stemOfY? text.toList.reverse = some stem) :
    text = stem ++ "y" := by
  generalize reversed : text.toList.reverse = chars at found
  have whole : text.toList = chars.reverse := List.reverse_eq_iff.mp reversed
  simp only [stemOfY?] at found
  split at found
  · split at found
    · contradiction
    · cases found
      rw [← String.toList_inj, whole]
      simp
  · contradiction

/-- The stem is cut out by its bytes. -/
theorem endBytes?_eq (ending other text : String) : endBytes? ending other text =
    some (match stemOfY? text.toList.reverse with
      | some stem => stem ++ ending
      | none => other) := by
  cases found : stemOfY? text.toList.reverse with
  | none => rw [endBytes?, found]; rfl
  | some stem =>
    have whole : text = stem ++ "y" := eq_of_stemOfY? found
    have size : text.utf8ByteSize - 1 = stem.utf8ByteSize := by
      rw [whole, String.utf8ByteSize_append]
      rfl
    have cut := Text.bytes?_front stem "y"
    rw [← whole] at cut
    rw [endBytes?, found, Option.isSome_some, if_pos rfl, size, cut]
    rfl

theorem pluralBytes?_eq (text : String) : pluralBytes? text = some (plural text) :=
  endBytes?_eq "ies" _ text

theorem pastTenseBytes?_eq (text : String) : pastTenseBytes? text = some (pastTense text) :=
  endBytes?_eq "ied" _ text

theorem firstPluralBytes?_eq (text : String) :
    firstPluralBytes? text = some (firstPlural text) := by
  rw [firstPluralBytes?, firstPlural]
  cases Text.cut? ' ' text with
  | none => exact pluralBytes?_eq text
  | some parts => exact congrArg (Option.map (· ++ " " ++ parts.2)) (pluralBytes?_eq parts.1)

end English

/-- Every range of bytes that a scan, the reading of a modifier, a plural or a past tense asks for
can be cut out of its text, whatever the text; and what is cut out leads to the same segments and
problems, to the same name and parameters and to the same words as the characters do. -/
theorem byte_ranges_fit (text : String) :
    Scanned.ofBytes? text = some (Scanned.ofRule text) ∧
      ModifierCall.ofBytes? text = some (ModifierCall.parse text) ∧
      English.pluralBytes? text = some (English.plural text) ∧
      English.pastTenseBytes? text = some (English.pastTense text) ∧
      English.firstPluralBytes? text = some (English.firstPlural text) :=
  ⟨Scanned.ofBytes?_eq text, ModifierCall.ofBytes?_eq text, English.pluralBytes?_eq text,
    English.pastTenseBytes?_eq text, English.firstPluralBytes?_eq text⟩

end TextGrammar
