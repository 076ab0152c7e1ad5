import TextGrammar.Text.Casing
import TextGrammar.Text.Split

/-! # English modifiers

A modifier changes the text of a tag and may take parameters. The ones here cover capitals,
articles, plurals and the past tense, by spelling alone.
-/

namespace TextGrammar

/-- A text transform that tags call by name, given the text and the call's parameters. -/
abbrev Modifier := String → List String → String

namespace English

/-- Whether a character is an ASCII vowel, in either case. -/
def isVowel (ch : Char) : Bool :=
  ['a', 'e', 'i', 'o', 'u'].contains ch.toLower

/-- Capitalize the first character, which may become several. -/
def capitalize (text : String) : String :=
  match text.toList with
  | [] => ""
  | first :: rest => .ofList (Text.upperCase.apply first ++ rest)

/-- Capitalize runs of letters and digits; `atStart` tells that a run starts here. -/
def capitalizeRuns (atStart : Bool) : List Char → List Char
  | [] => []
  | ch :: rest =>
    if !ch.isAlphanum then ch :: capitalizeRuns true rest
    else (if atStart then ch.toUpper else ch) :: capitalizeRuns false rest

/-- Capitalize the first character of every run of ASCII letters and digits. -/
def capitalizeAll (text : String) : String :=
  .ofList (capitalizeRuns true text.toList)

/-- Whether a word calls for "an": it starts with a vowel, and not with a "u" that is sounded like
"you", which an "i" in third place gives away. -/
def takesAn : List Char → Bool
  | first :: _ :: third :: _ => isVowel first && !(first.toLower == 'u' && third.toLower == 'i')
  | first :: _ => isVowel first
  | [] => false

/-- Put the indefinite article in front. -/
def article (text : String) : String :=
  (if takesAn text.toList then "an " else "a ") ++ text

/-- The text before a final "y" that no vowel precedes, if it ends in one. -/
def stemOfY? (reversed : List Char) : Option String :=
  match reversed with
  | 'y' :: stem =>
    if stem.head?.any isVowel then none else some (.ofList stem.reverse)
  | _ => none

/-- The plural by spelling. -/
def plural (text : String) : String :=
  let reversed := text.toList.reverse
  match stemOfY? reversed with
  | some stem => stem ++ "ies"
  | none => if reversed.head?.any (['s', 'h', 'x'].contains ·) then text ++ "es" else text ++ "s"

/-- The past tense by spelling. -/
def pastTense (text : String) : String :=
  let reversed := text.toList.reverse
  match stemOfY? reversed with
  | some stem => stem ++ "ied"
  | none => if reversed.head? = some 'e' then text ++ "d" else text ++ "ed"

/-- The plural of the first word, the rest left alone. -/
def firstPlural (text : String) : String :=
  match Text.cut? ' ' text with
  | some (first, rest) => plural first ++ " " ++ rest
  | none => plural text

/-- Replace every occurrence of the first parameter by the second. -/
def replace (text : String) : List String → String
  | old :: new :: _ => if old = "" then text else Text.replaceAll text old new
  | _ => text

/-- The English modifiers by the names that tags use, in order of name. -/
def modifiers : List (String × Modifier) := [
  ("a", fun text _ => article text),
  ("capitalize", fun text _ => capitalize text),
  ("capitalizeAll", fun text _ => capitalizeAll text),
  ("ed", fun text _ => pastTense text),
  ("firstS", fun text _ => firstPlural text),
  ("replace", replace),
  ("s", fun text _ => plural text)]

end English

end TextGrammar
