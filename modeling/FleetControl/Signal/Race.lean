import FleetControl.Signal

/-!
To await a signal is a race over its sources. It is won when one of them turns out to be cancelled. A source
that turns out to be dropped before it was cancelled is out of the race, which goes on without it.
-/
namespace FleetControl

structure Lane where
  handle : Nat
  out : Bool
deriving DecidableEq, Repr

namespace Lane

def fires (s : Signals) (l : Lane) : Bool := !l.out && s.isCancelled l.handle

def poll (s : Signals) (l : Lane) : Lane := { l with out := l.out || s.isDropped l.handle }

end Lane

inductive Race
  | running (lanes : List Lane)
  | won
deriving DecidableEq, Repr

def Race.poll (s : Signals) : Race → Race
  | .won => .won
  | .running lanes => if lanes.any (·.fires s) then .won else .running (lanes.map (·.poll s))

def Signal.race (signal : Signal) : Race := .running (signal.sources.map fun handle => ⟨handle, false⟩)

end FleetControl
