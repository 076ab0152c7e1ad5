import TextGrammar.Text.Casing
import TextGrammar.Text.CharacterTable

/-! # Blank characters -/

namespace TextGrammar.Text

/-- Whether a character is white space. -/
def isBlank (ch : Char) : Bool :=
  inRanges blankRanges ch

/-- A text without the blanks at its ends. -/
def trim (text : String) : String :=
  .ofList ((text.toList.dropWhile isBlank).reverse.dropWhile isBlank).reverse

end TextGrammar.Text
