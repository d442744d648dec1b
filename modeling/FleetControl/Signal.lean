/-!
Cancellation. A signal listens to any number of handles and fires once one of them is cancelled. A
handle that is dropped stays as it was.
-/
namespace FleetControl

structure Handle where
  cancelled : Bool
  dropped : Bool
deriving DecidableEq, Repr

structure Signal where
  sources : List Nat
deriving DecidableEq, Repr

structure Signals where
  handles : List Handle
  items : List (Nat × Nat)
deriving DecidableEq, Repr

namespace Signals

def none : Signals := ⟨[], []⟩

def newHandle (s : Signals) : Signals × Nat :=
  ({ s with handles := s.handles ++ [⟨false, false⟩] }, s.handles.length)

def cancel (s : Signals) (handle : Nat) : Signals :=
  { s with handles := s.handles.modify handle fun h =>
      if h.dropped then h else { h with cancelled := true } }

def drop (s : Signals) (handle : Nat) : Signals :=
  { s with handles := s.handles.modify handle fun h => { h with dropped := true } }

def isCancelled (s : Signals) (handle : Nat) : Bool :=
  (s.handles[handle]?.map (·.cancelled)).getD false

def isDropped (s : Signals) (handle : Nat) : Bool :=
  (s.handles[handle]?.map (·.dropped)).getD false

def itemHandle (s : Signals) (position : Nat) : Signals × Nat :=
  match s.items.find? fun i => i.1 == position with
  | some (_, handle) => (s, handle)
  | .none =>
    let (s, handle) := s.newHandle
    ({ s with items := s.items ++ [(position, handle)] }, handle)

end Signals

namespace Signal

def ofHandle (handle : Nat) : Signal := ⟨[handle]⟩

def either (a b : Signal) : Signal := ⟨a.sources ++ b.sources⟩

def fired (s : Signals) (signal : Signal) : Bool := signal.sources.any s.isCancelled

end Signal
end FleetControl
