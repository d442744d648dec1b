import FleetControl.Failure

namespace FleetControl.Batch

structure Item (α : Type) where
  token : String
  uuid : String
  result : Except ItemError α

def Item.error? {α : Type} (i : Item α) : Option ItemError :=
  match i.result with
  | .ok _ => none
  | .error e => some e

structure Outcome (α : Type) where
  items : List (Item α)

namespace Outcome

variable {α : Type}

def errors (o : Outcome α) : List ItemError := o.items.filterMap Item.error?

def failed (o : Outcome α) : Nat := o.errors.length

def hasFailures (o : Outcome α) : Bool := 0 < o.failed

end Outcome
end FleetControl.Batch
