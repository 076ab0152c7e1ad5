/-! # Cutting text at a character

Rule texts are cut at single characters: a tag head at its dots, pushed alternatives at their
commas, an action at its first colon. All cuts are made on lists of characters, so none can fall
inside a character.
-/

namespace TextGrammar.Text

/-- The pieces between the occurrences of a character; text without one is a single piece. -/
def split (mark : Char) (text : String) : List String :=
  (text.toList.splitOn mark).map String.ofList

/-- The text before and after the first character that passes the test, if there is one. -/
def cutWhere? (mark : Char → Bool) (text : String) : Option (String × String) :=
  match text.toList.dropWhile (! mark ·) with
  | [] => none
  | _ :: rest => some (.ofList (text.toList.takeWhile (! mark ·)), .ofList rest)

/-- The text before and after the first occurrence of a character, if there is one. -/
def cut? (mark : Char) (text : String) : Option (String × String) :=
  cutWhere? (· == mark) text

/-- Replace occurrences from left to right; `skip` characters still belong to the last match. -/
def replaceFrom (old new : List Char) : Nat → List Char → List Char
  | _, [] => []
  | skip + 1, _ :: rest => replaceFrom old new skip rest
  | 0, ch :: rest =>
    if old.isPrefixOf (ch :: rest) then new ++ replaceFrom old new (old.length - 1) rest
    else ch :: replaceFrom old new 0 rest

/-- Replace every occurrence of a text, left to right and without overlaps. -/
def replaceAll (text old new : String) : String :=
  .ofList (replaceFrom old.toList new.toList 0 text.toList)

end TextGrammar.Text
