import TextGrammar.Rule.Action
import TextGrammar.Rule.TagHead

/-! # What a rule refers to

The symbols, modifiers and pushed symbols that a rule mentions, found by going through its tags and
actions without expanding anything, and the flaws met on the way.
-/

namespace TextGrammar.Lint

/-- Something wrong with the text of a rule. -/
inductive Flaw
  | malformed (problem : Problem) (rule : String)
  | ambiguous (tag : AmbiguousTag)
deriving DecidableEq, Repr

/-- The wording of a flaw. -/
def Flaw.message : Flaw → String
  | .malformed problem rule => problem.message ++ " in \"" ++ rule ++ "\""
  | .ambiguous tag => tag.message

/-- What a text refers to, in the order found. -/
structure References where
  symbols : List String := []
  modifiers : List String := []
  pushed : List String := []
  flaws : List Flaw := []
deriving DecidableEq, Repr, Inhabited

namespace References

/-- The references of two texts, one after the other. -/
def append (first second : References) : References where
  symbols := first.symbols ++ second.symbols
  modifiers := first.modifiers ++ second.modifiers
  pushed := first.pushed ++ second.pushed
  flaws := first.flaws ++ second.flaws

/-- The references of several texts. -/
def concat (parts : List References) : References :=
  parts.foldr append {}

/-- What an action refers to; `ofText` finds what the texts in it refer to. -/
def ofAction (ofText : String → References) (raw : String) : References :=
  match Action.parse raw with
  | .push target rule =>
    append { pushed := [target] } (concat ((Text.split ',' rule).map ofText))
  | .pop _ => {}
  | .call rule => ofText rule

/-- What a tag refers to. -/
def ofTag (ofText : String → References) (raw : String) : References :=
  match TagHead.parse raw with
  | .error tag => { flaws := [.ambiguous tag] }
  | .ok head =>
    append (concat (head.preactions.map (ofAction ofText)))
      { symbols := if head.symbol = "" then [] else [head.symbol]
        modifiers := head.modifiers.map fun written => (ModifierCall.parse written).name }

/-- What a segment refers to. -/
def ofSegment (ofText : String → References) (segment : Segment) : References :=
  match segment.kind with
  | .plain => {}
  | .tag => ofTag ofText segment.raw
  | .action => ofAction ofText segment.raw

/-- What a rule refers to, down to a number of levels of texts within texts. -/
def within : Nat → String → References
  | 0, _ => {}
  | levels + 1, rule =>
    let scanned := Scanned.ofRule rule
    append { flaws := scanned.problems.map (.malformed · rule) }
      (concat (scanned.segments.map (ofSegment (within levels))))

/-- What a rule refers to. A text within another is shorter by its delimiters, so there are fewer
levels than characters. -/
def ofRule (rule : String) : References :=
  within (rule.length + 1) rule

end References

end TextGrammar.Lint
