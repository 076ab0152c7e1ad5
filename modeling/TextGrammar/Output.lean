/-! # What a tool prints -/

namespace TextGrammar

/-- The text that a tool prints and the code that it ends with. -/
structure Output where
  text : String := ""
  code : Nat := 0
deriving DecidableEq, Repr, Inhabited

/-- The code of a run that had to be given up. -/
def Output.crashed : Nat := 101

/-- Lines of text, each ended. -/
def lines (lines : List String) : String :=
  String.join (lines.map (· ++ "\n"))

end TextGrammar
