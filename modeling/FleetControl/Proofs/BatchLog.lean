import FleetControl.Proofs.Calls
import FleetControl.Proofs.Clearance
import FleetControl.Proofs.Replay

namespace FleetControl.Progress.Entry

variable {e : Entry} {now : Nat}

end FleetControl.Progress.Entry

namespace FleetControl.Batch

open Progress Floor

variable {s : Setup} {f : Floor} {now position count : Nat} {j : Job} {uuid : String} {e : Entry}
  {phase : Phase} {whats : List Happening} {fate : Fate} {items : List (String × String)}

def Setup.stage (s : Setup) (uuid stage : String) : String := s!"{s.command.describe uuid}: {stage}"

def Setup.lastStage (s : Setup) : String := if s.waiter.isSome then "done" else "request sent"

def Tells (s : Setup) (uuid : String) (e : Entry) : Result → Prop
  | .ok _ => e.status = .done ∧ e.message = s.stage uuid s.lastStage
  | .error (.remote _ source) =>
    e.status = .failed ∧ e.message = s.stage uuid "failed" ∧
      e.details = some ("error: " ++ source.advice)
  | .error (.wait _ source) =>
    e.status = .failed ∧ e.message = s.stage uuid "request sent, wait failed" ∧
      e.details = some ("error: " ++ source.message)
  | .error (.aborted _ _) => e.status = .inProgress

def dated (now : Nat) (whats : List Happening) : List (Nat × Note) :=
  whats.filterMap fun what => match what with
    | .noted n => some (now, n)
    | _ => none

def Floor.notes (f : Floor) (position : Nat) : List (Nat × Note) :=
  notesOf position (f.events.filterMap noteStep?)

def Setup.entry (s : Setup) (uuid : String) (notes : List (Nat × Note)) : Entry :=
  (Entry.pending (s.command.describe uuid)).afterAll notes

section
variable {cloud : Cloud} {c : Catalog} {tokens : List String} {command : Command} {o : Options}
  {operator : Operator} {clock : TimeOfDay}

end

end FleetControl.Batch
