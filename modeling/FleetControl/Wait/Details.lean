import FleetControl.Progress.Log
import FleetControl.Wait

namespace FleetControl.Waiter

open Progress

def details (entry : Option Nat) (failures : List (Nat × ApiError)) : List (Nat × Step) :=
  match entry with
  | none => []
  | some index => failures.map fun f => (f.1, .note index (.details "poll failed: " f.2.advice))

structure Told where
  waited : Vigil Ending
  log : Log
  written : List (Nat × String)

def told (entry : Option Nat) (log : Log) (v : Vigil Ending) : Told :=
  let (log, written) := log.replay (details entry v.failures)
  ⟨v, log, written⟩

def tell? (w : Waiter) (reply? : Nat → Option Reply) (cancelAt : Option Nat) (start : Nat)
    (entry : Option Nat) (log : Log) : Option Told :=
  (w.run? .checked reply? cancelAt start).map (told entry log)

end FleetControl.Waiter
