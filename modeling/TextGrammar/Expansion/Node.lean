import TextGrammar.Rule.Action
import TextGrammar.Rule.Escape
import TextGrammar.Rule.Scan
import TextGrammar.Symbol

/-! # Expansion trees

An expansion builds a tree with a node for the whole rule at its root and a node for every segment
below. A node carries its finished text, the problems met in it and below it, and what was read
from its source.
-/

namespace TextGrammar

/-- What a node stands for: a whole rule, or a segment of one. -/
inductive NodeKind
  | root
  | segment (kind : SegmentKind)
deriving DecidableEq, Repr, Inhabited

/-- A node of an expansion tree. -/
structure Node where
  kind : NodeKind
  raw : String
  place : Place := ⟨0, 0⟩
  parent : Option Place := none
  expanded : Bool := false
  children : List Node := []
  /-- The finished text. -/
  text : String := ""
  /-- The rule that the children were scanned from. -/
  childRule : Option String := none
  /-- The symbol that a tag resolved. -/
  symbol : Option String := none
  /-- The modifiers of a tag, as written. -/
  modifiers : List String := []
  /-- The actions run before a tag's symbol was resolved. -/
  preactions : List Action := []
  /-- The pops that undid a tag's pushes. -/
  postactions : List Action := []
  /-- The action of an action node, once it has run. -/
  action : Option Action := none
  /-- The problems of the node and of everything below it, in the order they were met. -/
  errors : List Problem := []

namespace Node

/-- The root of a tree that expands a rule. -/
def root (rule : String) : Node :=
  { kind := .root, raw := rule }

/-- The node of a segment below a parent. -/
def ofSegment (parent : Place) (index : Nat) (segment : Segment) : Node :=
  { kind := .segment segment.kind
    raw := segment.raw
    place := ⟨parent.depth + 1, index⟩
    parent := some parent }

/-- The node as it stands in its rule, shown for nodes that are not expanded. -/
def source (node : Node) : String :=
  match node.kind with
  | .root => node.raw
  | .segment kind => kind.enclose node.raw

/-- Add problems after those there are. -/
def addErrors (node : Node) (problems : List Problem) : Node :=
  { node with errors := node.errors ++ problems }

/-- Give a node the segments of a rule as its children. -/
def adopt (node : Node) (rule : String) (scanned : Scanned) : Node :=
  { node.addErrors scanned.problems with
    childRule := some rule
    children := scanned.segments.mapIdx (ofSegment node.place) }

/-- The node refused for want of room: its source stands in a placeholder. -/
def refused (node : Node) (limit : Nat) : Node :=
  { node.addErrors [.recursionLimit limit node.raw] with text := placeholder node.raw }

/-- Resolve the escape markers in the finished text. -/
def resolveEscapes (node : Node) : Node :=
  { node with text := unescape node.text }

mutual

/-- The nodes of a tree, each before its children. -/
def preorder : Node → List Node
  | node@⟨_, _, _, _, _, children, _, _, _, _, _, _, _, _⟩ => node :: preorderAll children

/-- The nodes of several trees, one tree after the other. -/
def preorderAll : List Node → List Node
  | [] => []
  | node :: rest => node.preorder ++ preorderAll rest

end

end Node

end TextGrammar
