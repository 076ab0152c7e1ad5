/-! # Maps keyed by text

A map is a list of entries in ascending order of their keys, each key once; `List.lookup` reads it.
Keys are compared by code point.
-/

namespace TextGrammar.Keyed

variable {α : Type}

/-- Set the value of a key, in its place in the order. -/
def insert (key : String) (value : α) : List (String × α) → List (String × α)
  | [] => [(key, value)]
  | (k, v) :: rest =>
    if key = k then (key, value) :: rest
    else if key < k then (key, value) :: (k, v) :: rest
    else (k, v) :: insert key value rest

/-- Change the value of a key; a map without the key stays. -/
def modify (key : String) (change : α → α) : List (String × α) → List (String × α)
  | [] => []
  | (k, v) :: rest => if k = key then (k, change v) :: rest else (k, v) :: modify key change rest

/-- Lay entries over a map, the later of two with the same key winning. -/
def overlay (map entries : List (String × α)) : List (String × α) :=
  entries.foldl (fun map entry => insert entry.1 entry.2 map) map

/-- The map of a list of entries, the later of two with the same key winning. -/
def ofEntries (entries : List (String × α)) : List (String × α) :=
  overlay [] entries

/-- Entries in ascending order of their keys; entries of one key keep the order they had. -/
def sort (entries : List (String × α)) : List (String × α) :=
  entries.mergeSort fun first second => first.1 ≤ second.1

/-- The keys, in order. -/
def keys (map : List (String × α)) : List String :=
  map.map (·.1)

/-- Whether a key has a value. -/
def has (key : String) (map : List (String × α)) : Bool :=
  (map.lookup key).isSome

end TextGrammar.Keyed
