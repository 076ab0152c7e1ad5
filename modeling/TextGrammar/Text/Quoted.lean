import TextGrammar.Text.Blank

/-! # Quoted text

Text between double quotes, with everything a terminal would not show as one visible character
written as an escape: quotes and backslashes, the common controls by letter, and unprintable or
combining characters by code point.
-/

namespace TextGrammar.Text

/-- How a character stands between quotes. -/
def quotedChar (ch : Char) : List Char :=
  if ch = '\x00' then ['\\', '0']
  else if ch = '\t' then ['\\', 't']
  else if ch = '\r' then ['\\', 'r']
  else if ch = '\n' then ['\\', 'n']
  else if ch = '"' ∨ ch = '\\' then ['\\', ch]
  else if inRanges combiningRanges ch || inRanges unprintableRanges ch then
    ['\\', 'u', '{'] ++ Nat.toDigits 16 ch.toNat ++ ['}']
  else [ch]

/-- A text between quotes. -/
def quoted (text : String) : String :=
  .ofList ('"' :: text.toList.flatMap quotedChar ++ ['"'])

/-- Texts between quotes, as a bracketed list. -/
def quotedList (texts : List String) : String :=
  "[" ++ ", ".intercalate (texts.map quoted) ++ "]"

end TextGrammar.Text
