import TextGrammar.Rule.Scan
import TextGrammar.Text.Split

/-! # Tag heads

Between its `#` marks a tag holds actions to run first and a main section `symbol.modifier…`. The
main section must be in one piece. `ModifierCall` reads one modifier with its parameters.
-/

namespace TextGrammar

/-- A tag head taken apart. The symbol is empty when the tag held only actions. -/
structure TagHead where
  symbol : String := ""
  modifiers : List String := []
  preactions : List String := []
  problems : List Problem := []
deriving DecidableEq, Repr, Inhabited

/-- The plain sections of a scan, in order. -/
def Scanned.plainTexts (scanned : Scanned) : List String :=
  (scanned.segments.filter (·.kind == .plain)).map (·.raw)

/-- The bodies of a scan's tags and actions, in order. -/
def Scanned.enclosedTexts (scanned : Scanned) : List String :=
  (scanned.segments.filter (·.kind != .plain)).map (·.raw)

/-- Read the text between the marks of a tag. -/
def TagHead.parse (raw : String) : Except AmbiguousTag TagHead :=
  let scanned := Scanned.ofRule raw
  let head : TagHead := { preactions := scanned.enclosedTexts, problems := scanned.problems }
  match scanned.plainTexts with
  | [] => .ok head
  | [main] =>
    match Text.split '.' main with
    | [] => .ok head
    | symbol :: modifiers => .ok { head with symbol, modifiers }
  | _ :: _ :: _ => .error ⟨raw⟩

/-- A modifier's name and its parameters, as in `replace(a,b)`. -/
structure ModifierCall where
  name : String
  params : List String := []
deriving DecidableEq, Repr, Inhabited

/-- Read a modifier. Commas and parentheses inside parameters cannot be escaped, and a text with
empty or unfinished parentheses, or with nothing before them, is a name as a whole. -/
def ModifierCall.parse (text : String) : ModifierCall :=
  match Text.cut? '(' text with
  | none => ⟨text, []⟩
  | some (name, rest) =>
    match Text.cut? ')' rest with
    | none => ⟨text, []⟩
    | some (inner, _) =>
      if name = "" ∨ inner = "" then ⟨text, []⟩ else ⟨name, Text.split ',' inner⟩

end TextGrammar
