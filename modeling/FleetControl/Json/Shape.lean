import FleetControl.Json.Writer
import FleetControl.Text.Quoted

/-!
Reading typed data out of JSON values. A record is an object whose fields are looked up by name, or
a list that gives them by position. Unknown fields are ignored. Of several faults in an object the
one whose key comes first counts, and a missing field only if every field present is sound.
-/
namespace FleetControl.Json

inductive Found
  | null
  | bool (value : Bool)
  | number (value : Number)
  | text (value : String)
  | list
  | object
deriving DecidableEq, Repr

def found : Json → Found
  | .null => .null
  | .bool b => .bool b
  | .number n => .number n
  | .text s => .text s
  | .list _ => .list
  | .object _ => .object

def Found.render : Found → String
  | .null => "null"
  | .bool b => s!"boolean `{b}`"
  | .number (.whole n) => s!"integer `{n}`"
  | .number (.real bits) => s!"floating point `{(Number.real bits).render}`"
  | .text s => s!"string {Text.quoted s}"
  | .list => "sequence"
  | .object => "map"

inductive ShapeFault
  | wrongType (found : Found) (expected : String)
  | wrongValue (found : Found) (expected : String)
  | wrongLength (length : Nat) (expected : String)
  | missing (key : String)
  | noChoice (given : String) (choices : List String)
deriving DecidableEq, Repr

def renderChoices : List String → String
  | [] => ""
  | [a] => s!"`{a}`"
  | [a, b] => s!"`{a}` or `{b}`"
  | choices => "one of " ++ ", ".intercalate (choices.map fun c => s!"`{c}`")

def ShapeFault.message : ShapeFault → String
  | wrongType found expected => s!"invalid type: {found.render}, expected {expected}"
  | wrongValue found expected => s!"invalid value: {found.render}, expected {expected}"
  | wrongLength n expected => s!"invalid length {n}, expected {expected}"
  | missing key => s!"missing field `{key}`"
  | noChoice given choices => s!"unknown variant `{given}`, expected {renderChoices choices}"

abbrev Shaped (α : Type) := Json → Except ShapeFault α

namespace Shape

def wrongType {α : Type} (v : Json) (expected : String) : Except ShapeFault α :=
  .error (.wrongType v.found expected)

def text : Shaped String
  | .text s => .ok s
  | v => wrongType v "a string"

def nat32 : Shaped Nat
  | .number (.whole n) =>
    if 0 ≤ n ∧ n < Nat.pow 2 32 then .ok n.toNat
    else .error (.wrongValue (.number (.whole n)) "u32")
  | v => wrongType v "u32"

def option {α : Type} (shape : Shaped α) : Shaped (Option α)
  | .null => .ok none
  | v => (shape v).map some

def list {α : Type} (shape : Shaped α) : Shaped (List α)
  | .list items => items.mapM shape
  | v => wrongType v "a sequence"

def choice {α : Type} (words : List (String × α)) : Shaped α
  | .text s => pick s
  | .object [(key, v)] => do
    let a ← pick key
    match v with
    | .null => .ok a
    | v => wrongType v "unit"
  | .object _ => .error (.wrongValue .object "map with a single key")
  | v => wrongType v "string or map"
where
  pick (s : String) : Except ShapeFault α :=
    match words.find? fun w => w.1 == s with
    | some w => .ok w.2
    | none => .error (.noChoice s (words.map (·.1)))

def field? {α : Type} (fields : Fields) (key : String) (shape : Shaped α) :
    Except ShapeFault (Option α) :=
  match fields.get? key with
  | some v => (shape v).map some
  | none => .ok none

def field {α : Type} (fields : Fields) (key : String) (shape : Shaped α) (absent : α) :
    Except ShapeFault α :=
  (field? fields key shape).map fun v => v.getD absent

def required {α : Type} (key : String) : Option α → Except ShapeFault α
  | some a => .ok a
  | none => .error (.missing key)

abbrev Items (α : Type) := StateT (Nat × List Json) (Except ShapeFault) α

def item? {α : Type} (shape : Shaped α) : Items (Option α) := do
  match ← get with
  | (n, v :: rest) =>
    let a ← (shape v : Except ShapeFault α)
    set (n + 1, rest)
    pure (some a)
  | (_, []) => pure none

def item {α : Type} (shape : Shaped α) (absent : α) : Items α := do
  pure ((← item? shape).getD absent)

def requiredItem {α : Type} (shape : Shaped α) (expected : String) : Items α := do
  let n := (← get).1
  match ← item? shape with
  | some a => pure a
  | none => throw (.wrongLength n expected)

def sized (name : String) (count : Nat) : String :=
  s!"struct {name} with {count} element" ++ if count = 1 then "" else "s"

def record {α : Type} (name : String) (ofFields : Fields → Except ShapeFault α)
    (ofItems : Items α) : Shaped α
  | .object fields => ofFields fields
  | .list items => do
    let (a, (_, rest)) ← ofItems.run (0, items)
    if rest.isEmpty then .ok a
    else .error (.wrongLength items.length "fewer elements in array")
  | v => wrongType v s!"struct {name}"

end Shape
end FleetControl.Json
