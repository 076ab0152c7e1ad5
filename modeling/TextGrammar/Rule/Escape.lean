/-! # Escape markers

A backslash in front of a delimiter makes it plain text. The marker stays through every scan of the
text and is resolved once, when the outermost expansion is finished.
-/

namespace TextGrammar

/-- Resolve the markers in a list of characters. -/
def unescapeChars : List Char → List Char
  | '\\' :: '\\' :: rest => '\\' :: unescapeChars rest
  | '\\' :: rest => unescapeChars rest
  | ch :: rest => ch :: unescapeChars rest
  | [] => []

/-- Resolve escape markers: a doubled backslash stands for one, and any other is dropped. -/
def unescape (text : String) : String :=
  .ofList (unescapeChars text.toList)

/-- The characters that mean something in a rule. -/
def isDelimiter (ch : Char) : Bool :=
  ch == '\\' || ch == '#' || ch == '[' || ch == ']'

/-- Put a marker before every character that means something in a rule. -/
def escape (text : String) : String :=
  .ofList (text.toList.flatMap fun ch => if isDelimiter ch then ['\\', ch] else [ch])

end TextGrammar
