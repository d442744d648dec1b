namespace FleetControl

/-- A number is whole if it has neither point nor exponent and fits 64 bits, signed below zero and
unsigned above; any other one is a binary floating-point number, kept by its bits. -/
inductive Json.Number
  | whole (value : Int)
  | real (bits : UInt64)
deriving DecidableEq, Repr, Inhabited

inductive Json
  | null
  | bool (value : Bool)
  | number (value : Json.Number)
  | text (value : String)
  | list (items : List Json)
  | object (fields : List (String × Json))
deriving Inhabited

namespace Json

abbrev Fields := List (String × Json)

def whole (n : Int) : Json := .number (.whole n)

def nat (n : Nat) : Json := whole n

def Fields.get? (fields : Fields) (key : String) : Option Json :=
  (fields.find? fun field => field.1 == key).map (·.2)

def Fields.insert (fields : Fields) (key : String) (value : Json) : Fields :=
  match fields with
  | [] => [(key, value)]
  | (k, v) :: rest =>
    if key < k then (key, value) :: (k, v) :: rest
    else if key = k then (key, value) :: rest
    else (k, v) :: Fields.insert rest key value

def Fields.sorted (fields : Fields) : Fields :=
  fields.foldl (fun acc field => acc.insert field.1 field.2) []

def get? : Json → String → Option Json
  | .object fields, key => Fields.get? fields key
  | _, _ => none

def text? : Json → Option String
  | .text s => some s
  | _ => none

mutual
def sortKeys : Json → Json
  | .list items => .list (sortKeysList items)
  | .object fields => .object (sortKeysFields fields)
  | v => v

def sortKeysList : List Json → List Json
  | [] => []
  | v :: rest => sortKeys v :: sortKeysList rest

def sortKeysFields : List (String × Json) → List (String × Json)
  | [] => []
  | (key, v) :: rest => Fields.insert (sortKeysFields rest) key (sortKeys v)
end

end Json
end FleetControl
