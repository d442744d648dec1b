import FleetControl.Signal.Race

namespace FleetControl.Signals

inductive Origin
  | handle (number : Nat)
  | slot (position : Nat)
deriving DecidableEq, Repr

inductive Making
  | of (origin : Origin)
  | either (a b : Nat)
deriving DecidableEq, Repr

inductive Step
  | handle
  | take (making : Making)
  | cancel (origin : Origin)
  | drop (number : Nat)
deriving DecidableEq, Repr

structure Session where
  signals : Signals
  owned : List Nat
  taken : List Signal
deriving DecidableEq, Repr

namespace Session

def empty : Session := ⟨Signals.none, [], []⟩

def use? (s : Session) : Origin → Option (Signals × Nat)
  | .handle number => s.owned[number]?.map fun handle => (s.signals, handle)
  | .slot position => some (s.signals.itemHandle position)

def make? (s : Session) : Making → Option (Signals × Signal)
  | .of origin => (s.use? origin).map fun (signals, handle) => (signals, Signal.ofHandle handle)
  | .either a b => do
    let x ← s.taken[a]?
    let y ← s.taken[b]?
    some (s.signals, x.either y)

def perform? (s : Session) : Step → Option Session
  | .handle =>
    let (signals, handle) := s.signals.newHandle
    some { s with signals, owned := s.owned ++ [handle] }
  | .take making => (s.make? making).map fun (signals, signal) =>
    { s with signals, taken := s.taken ++ [signal] }
  | .cancel origin => (s.use? origin).map fun (signals, handle) =>
    { s with signals := signals.cancel handle }
  | .drop number => s.owned[number]?.map fun handle => { s with signals := s.signals.drop handle }

def run? (s : Session) (steps : List Step) : Option Session := steps.foldlM perform? s

def follow? (s : Session) (race : Race) : List (List Step) → Option (Session × Race)
  | [] => some (s, race)
  | steps :: rest => do
    let t ← s.run? steps
    t.follow? (race.poll t.signals) rest

def await (s : Session) (signal : Signal) : Race := signal.race.poll s.signals

end Session
end FleetControl.Signals
