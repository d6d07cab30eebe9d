/-!
# Ordered fields

String-keyed mappings as lists of pairs in strictly ascending key order, the order of code points.
`insert` keeps the order and replaces the value of a key that is already there.
-/

namespace ScriptHost.Fields

variable {α β : Type}

/-- Keys are strictly ascending. -/
def Sorted (fields : List (String × α)) : Prop := fields.Pairwise fun a b => a.1 < b.1

/-- Set the value of a key. -/
def insert (key : String) (value : α) : List (String × α) → List (String × α)
  | [] => [(key, value)]
  | (k, v) :: rest =>
    if key < k then (key, value) :: (k, v) :: rest
    else if key = k then (key, value) :: rest
    else (k, v) :: insert key value rest

/-- The value of a key. -/
def get? (key : String) : List (String × α) → Option α
  | [] => none
  | (k, v) :: rest => if k = key then some v else get? key rest

/-- Whether a key has a value. -/
def contains (key : String) (fields : List (String × α)) : Bool := (get? key fields).isSome

/-- Drop a key. -/
def erase (key : String) (fields : List (String × α)) : List (String × α) :=
  fields.filter fun p => p.1 != key

/-- The keys in order. -/
def keys (fields : List (String × α)) : List String := fields.map (·.1)

/-- The values in key order. -/
def values (fields : List (String × α)) : List α := fields.map (·.2)

/-- The mapping of a list of pairs in which later pairs win. -/
def ofList (pairs : List (String × α)) : List (String × α) :=
  pairs.foldl (fun fields p => insert p.1 p.2 fields) []

/-- The mapping with the pairs of another one written over it. -/
def union (fields others : List (String × α)) : List (String × α) :=
  others.foldl (fun fields p => insert p.1 p.2 fields) fields

end ScriptHost.Fields
