import TextGrammar.Keyed
import TextGrammar.WrittenRules

/-! # Plain data

What a data format says before anyone asks what it means: numbers, texts, lists and tables. Written
rules are read from it by shape: a text is one alternative, a list of texts is several, and a table
or a list of another shape is a conditional set.
-/

namespace TextGrammar

/-- A piece of plain data. Tables keep their entries as they come, repetitions too. -/
inductive Datum
  | nothing
  | truth (value : Bool)
  /-- A whole number written without a sign. -/
  | natural (value : Nat)
  /-- Any other number. -/
  | number (value : Float)
  | letter (value : Char)
  | text (value : String)
  | list (items : List Datum)
  | table (entries : List (Datum × Datum))
  /-- A value marked as present, which is not the value itself. -/
  | present (value : Datum)
deriving Inhabited

namespace Datum

/-- The text of a text. -/
def text? : Datum → Option String
  | .text value => some value
  | _ => none

/-- The texts of a list of texts. -/
def texts? : Datum → Option (List String)
  | .list items => items.mapM text?
  | _ => none

/-- The fields of a conditional set. -/
inductive Field
  | condition
  | branches
  | defaults
deriving DecidableEq

/-- The field that a key names, by its word or by its position; the inner answer is none for a key
that names no field, and the outer one for a key that cannot name any. -/
def field? : Datum → Option (Option Field)
  | .text "condition" => some (some .condition)
  | .text "branches" => some (some .branches)
  | .text "default" => some (some .defaults)
  | .text _ => some none
  | .natural 0 => some (some .condition)
  | .natural 1 => some (some .branches)
  | .natural 2 => some (some .defaults)
  | .natural position => if position < UInt8.size ∨ UInt32.size ≤ position then some none else none
  | _ => none

/-- The values that a table gives for its fields, in order; none if a key cannot name a field. -/
def fields? : List (Datum × Datum) → Option (List (Field × Datum))
  | [] => some []
  | (key, value) :: rest => do
    let named ← key.field?
    let others ← fields? rest
    some ((named.map (·, value)).toList ++ others)

/-- The value of a field that may be given at most once: none if it is repeated. -/
def once? (field : Field) (fields : List (Field × Datum)) : Option (Option Datum) :=
  match fields.filter (·.1 == field) with
  | [] => some none
  | [(_, value)] => some (some value)
  | _ => none

mutual

/-- Read written rules from data. -/
def rules? : Datum → Option WrittenRules
  | .text rule => some (.one rule)
  | .list items =>
    match items.mapM text? with
    | some rules => some (.many rules)
    | none => positional? items
  | .table entries => do
    let fields ← fields? entries
    let condition ← (← once? .condition fields).bind text?
    let defaults ← ((← once? .defaults fields).getD (.list [])).texts?
    let _ ← once? .branches fields
    let branches ← branchesAmong? entries
    some (.conditional condition branches defaults)
  | _ => none

/-- Read a conditional set from a list: condition, branches and defaults, of which the last may be
left out. A condition alone is a list of one text. -/
def positional? : List Datum → Option WrittenRules
  | [.text condition, branches] => do
    some (.conditional condition (← branches? branches) [])
  | [.text condition, branches, defaults] => do
    some (.conditional condition (← branches? branches) (← defaults.texts?))
  | _ => none

/-- Read the branches of a conditional set, the later of two with the same key winning. -/
def branches? : Datum → Option (List (String × WrittenRules))
  | .table entries => (entries? entries).map Keyed.ofEntries
  | _ => none

/-- Read rules by name, each of which must be readable. -/
def entries? : List (Datum × Datum) → Option (List (String × WrittenRules))
  | [] => some []
  | (key, value) :: rest => do
    let name ← key.text?
    let rules ← rules? value
    let others ← entries? rest
    some ((name, rules) :: others)

/-- Read the branches from among the fields of a table; a table without them has none. -/
def branchesAmong? : List (Datum × Datum) → Option (List (String × WrittenRules))
  | [] => some []
  | (key, value) :: rest =>
    if key.field? = some (some .branches) then branches? value else branchesAmong? rest

end

/-- Read a grammar from a table of rules by name. -/
def grammar? : Datum → Option WrittenGrammar
  | .table entries => (entries? entries).map Keyed.ofEntries
  | _ => none

/-- The value that a table has for a name; of two the later. -/
def get? (name : String) : Datum → Option Datum
  | .table entries =>
    (entries.reverse.find? fun entry => entry.1.text? == some name).map (·.2)
  | _ => none

end Datum

end TextGrammar
