/-! # Segments of a rule

A rule is written as plain text with tags `#symbol#` and actions `[target:rule]` in it. A segment
keeps the text between its delimiters; `Segment.source` puts them back.
-/

namespace TextGrammar

/-- What a stretch of a rule is. -/
inductive SegmentKind
  | plain
  | tag
  | action
deriving DecidableEq, Repr, Inhabited

/-- Put the delimiters of a kind around a text. -/
def SegmentKind.enclose : SegmentKind → String → String
  | .plain, raw => raw
  | .tag, raw => "#" ++ raw ++ "#"
  | .action, raw => "[" ++ raw ++ "]"

/-- One stretch of a rule, without its delimiters. -/
structure Segment where
  kind : SegmentKind
  raw : String
deriving DecidableEq, Repr, Inhabited

/-- The segment as it stands in the rule, delimiters included. -/
def Segment.source (segment : Segment) : String :=
  segment.kind.enclose segment.raw

end TextGrammar
