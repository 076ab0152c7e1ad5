import TextGrammar.Keyed
import TextGrammar.Text.Split

/-! # Files and folders

A snapshot of files as a value. Paths are relative and use slashes; what stands at a path is looked
up step by step, so every folder on the way must exist.
-/

namespace TextGrammar

/-- A file or a folder. A file has no text when its bytes are not valid. The members of a folder
stand in any order; who reads a folder sorts them. -/
inductive Entry
  | file (text : Option String)
  | folder (members : List (String × Entry))
deriving Inhabited

/-- What stands at a path, if anything does. -/
abbrev Files := String → Option Entry

namespace Entry

/-- Whether an entry can hold others. -/
def isFolder : Entry → Bool
  | .folder _ => true
  | .file _ => false

/-- The text of a file that can be read. -/
def text? : Entry → Option String
  | .file text => text
  | .folder _ => none

/-- The members of a folder, with their names. -/
def members : Entry → List (String × Entry)
  | .folder members => members
  | .file _ => []

/-- Go through the steps of a path; `above` holds the folders passed, nearest first. -/
def walk? (above : List Entry) : Entry → List String → Option Entry
  | here, [] => some here
  | .file _, _ :: _ => none
  | .folder members, step :: rest =>
    if step = "" ∨ step = "." then walk? above (.folder members) rest
    else if step = ".." then
      match above with
      | [] => none
      | parent :: above => walk? above parent rest
    else
      match members.lookup step with
      | none => none
      | some member => walk? (.folder members :: above) member rest

/-- What stands at a path below a folder; the empty path leads to the folder itself. -/
def within? (root : Entry) : Files := fun path =>
  if path.toList.head? = some '/' then none else walk? [] root (Text.split '/' path)

/-- What stands at a path, for one who works in a folder; the empty path names nothing. -/
def at? (root : Entry) : Files := fun path =>
  if path = "" then none else root.within? path

/-- Put a file or an empty folder at the end of a path, with the folders on the way. A folder that
is already there keeps its members. -/
def place (member : Entry) : List String → Entry → Entry
  | [], .folder members => if member.isFolder then .folder members else member
  | [], .file _ => member
  | step :: rest, entry =>
    let below := (entry.members.lookup step).getD (.folder [])
    .folder (Keyed.insert step (place member rest below) entry.members)

end Entry

namespace FilePath

/-- The steps of a path, without those that stay in place. -/
def steps (path : String) : List String :=
  (Text.split '/' path).filter fun step => step != "" && step != "."

/-- The last name of a path, unless it leads upward. -/
def name? (path : String) : Option String :=
  match (steps path).getLast? with
  | some name => if name = ".." then none else some name
  | none => none

/-- What follows the last dot of the last name; a name that only starts with a dot has none. -/
def extension? (path : String) : Option String :=
  (name? path).bind fun name =>
    match (Text.split '.' name).reverse with
    | extension :: [first] => if first = "" then none else some extension
    | extension :: _ :: _ => some extension
    | _ => none

/-- The path of a member of a folder. -/
def join (folder member : String) : String :=
  if folder.toList.getLast? = some '/' then folder ++ member else folder ++ "/" ++ member

end FilePath

end TextGrammar
