import TextGrammar.Text.CaseTable

/-! # Case of a text

Case mapping is by character, with one exception: a capital sigma that ends a word becomes a final
sigma in lower case.
-/

namespace TextGrammar.Text

/-- Whether a character lies in one of the ranges. -/
def inRanges (ranges : List (Nat × Nat)) (ch : Char) : Bool :=
  ranges.any fun (first, last) => first ≤ ch.toNat && ch.toNat ≤ last

/-- Where a run sends a code point, if the run holds it. -/
def CaseRun.image? (run : CaseRun) (code : Nat) : Option Nat :=
  if run.first ≤ code ∧ code ≤ run.last ∧ (code - run.first) % run.step = 0 then
    some ((code : Int) + run.shift).toNat
  else none

/-- The characters a character becomes; a character the mapping does not know stays. -/
def CaseMap.apply (caseMap : CaseMap) (ch : Char) : List Char :=
  match caseMap.expansions.lookup ch.toNat with
  | some codes => codes.map .ofNat
  | none =>
    match caseMap.runs.findSome? (·.image? ch.toNat) with
    | some code => [.ofNat code]
    | none => [ch]

/-- The mapping to upper case. -/
def upperCase : CaseMap := ⟨upperRuns, upperExpansions⟩

/-- The mapping to lower case. -/
def lowerCase : CaseMap := ⟨lowerRuns, lowerExpansions⟩

/-- Whether the first character that is not passed over has a case. -/
def startsCased (chars : List Char) : Bool :=
  match chars.dropWhile (inRanges caseIgnorable) with
  | [] => false
  | ch :: _ => inRanges cased ch

/-- Lower the characters of a text; `before` holds those already passed, last to first. -/
def lowerFrom (before : List Char) : List Char → List Char
  | [] => []
  | ch :: rest =>
    let lowered :=
      if ch = 'Σ' then [if startsCased before && !startsCased rest then 'ς' else 'σ']
      else lowerCase.apply ch
    lowered ++ lowerFrom (ch :: before) rest

/-- A text in lower case. -/
def lower (text : String) : String :=
  .ofList (lowerFrom [] text.toList)

end TextGrammar.Text
