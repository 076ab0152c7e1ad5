import TextGrammar.Problem
import TextGrammar.Rule.Segment

/-! # Scanning a rule into segments

One pass over the characters of a rule. The cursor knows the bracket depth, whether a tag is open,
and whether the next character is escaped; only brackets opened at depth zero outside a tag, and
`#` at depth zero, end a segment. A backslash keeps the next character from being a delimiter and
stays in the text until an expansion is finished. Scanning never fails: what cannot be closed
becomes plain text, and a problem says so.
-/

namespace TextGrammar

/-- What a scan yields: segments in source order, and the problems met. -/
structure Scanned where
  segments : List Segment := []
  problems : List Problem := []
deriving DecidableEq, Repr, Inhabited

/-- Where a scan stands between two characters. The depth falls below zero after a stray `]`. -/
structure Cursor where
  position : Nat := 0
  depth : Int := 0
  inTag : Bool := false
  escaped : Bool := false
deriving DecidableEq, Repr, Inhabited

/-- The kind of the segment that ends just before a character, if the character ends one. -/
def Cursor.boundary? (cursor : Cursor) (ch : Char) : Option SegmentKind :=
  if cursor.escaped then none
  else if ch = '[' then if cursor.depth = 0 ∧ cursor.inTag = false then some .plain else none
  else if ch = ']' then if cursor.depth = 1 ∧ cursor.inTag = false then some .action else none
  else if ch = '#' ∧ cursor.depth = 0 then some (if cursor.inTag then .tag else .plain)
  else none

/-- Step over a character. -/
def Cursor.step (cursor : Cursor) (ch : Char) : Cursor :=
  let next := { cursor with position := cursor.position + ch.utf8Size, escaped := false }
  if cursor.escaped then next
  else if ch = '[' then { next with depth := cursor.depth + 1 }
  else if ch = ']' then { next with depth := cursor.depth - 1 }
  else if ch = '#' ∧ cursor.depth = 0 then { next with inTag := !cursor.inTag }
  else if ch = '\\' then { next with escaped := true }
  else next

/-- The problems that show only when the rule ends. -/
def Cursor.leftOpen (cursor : Cursor) : List Problem :=
  (if cursor.inTag then [.unclosedTag] else []) ++
  (if 0 < cursor.depth then [.unclosedBracket] else []) ++
  (if cursor.depth < 0 then [.strayBracket] else [])

/-- Put a finished segment, its characters given last to first, before the rest of a scan. Empty
plain text carries nothing and is dropped; an empty tag or action is kept and reported at the
position where its text would stand. -/
def Scanned.cut (kind : SegmentKind) (reversed : List Char) (position : Nat) (rest : Scanned) :
    Scanned :=
  match reversed, kind with
  | [], .plain => rest
  | [], .tag => ⟨⟨.tag, ""⟩ :: rest.segments, .emptyTag position :: rest.problems⟩
  | [], .action => ⟨⟨.action, ""⟩ :: rest.segments, .emptyAction position :: rest.problems⟩
  | _ :: _, _ => ⟨⟨kind, .ofList reversed.reverse⟩ :: rest.segments, rest.problems⟩

/-- Scan what is left of a rule, with the characters of the open segment given last to first. -/
def Cursor.scan (cursor : Cursor) (reversed : List Char) : List Char → Scanned
  | [] => .cut .plain reversed cursor.position ⟨[], cursor.leftOpen⟩
  | ch :: rest =>
    match cursor.boundary? ch with
    | some kind => .cut kind reversed cursor.position ((cursor.step ch).scan [] rest)
    | none => (cursor.step ch).scan (ch :: reversed) rest

/-- The segments of a rule. -/
def Scanned.ofRule (rule : String) : Scanned :=
  Cursor.scan {} [] rule.toList

/-- The segments of a rule that may be absent; an absent rule has none, and no problems. -/
def Scanned.ofRule? (rule : Option String) : Scanned :=
  rule.elim {} ofRule

end TextGrammar
