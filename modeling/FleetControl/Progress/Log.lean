import FleetControl.Progress.Entry

/-!
The progress log: one entry an action, in the order of their creation. On a plain stream every
change appends the line of the entry that changed. On a terminal the whole block of lines is
written again in its place, each line cut so that it takes one row.
-/
namespace FleetControl.Progress

inductive Screen
  | stream
  | terminal (columns : Option Nat)
deriving DecidableEq, Repr

structure Log where
  screen : Screen
  entries : List Entry
  drawn : Nat
deriving DecidableEq, Repr

def fitWidth (columns : Nat) (line : String) : String :=
  String.ofList (line.toList.take (max (columns - 1) 1))

def moveUp (lines : Nat) : String := s!"\x1b[{lines}F"

def clearBelow : String := "\x1b[J"

/-- No cursor movement goes further than this many lines. -/
def farthest : Nat := 65535

namespace Log

def empty (screen : Screen) : Log := ⟨screen, [], 0⟩

def fitted (columns : Option Nat) (line : String) : String :=
  match columns with
  | some n => fitWidth n line
  | none => line

def redraw (log : Log) (changed : Nat) : Log × String :=
  match log.screen with
  | .stream =>
    (log, ((log.entries[changed]?).map fun e => e.render ++ "\n").getD "")
  | .terminal columns =>
    let back := if log.drawn = 0 then "" else moveUp (min log.drawn farthest) ++ clearBelow
    ({ log with drawn := log.entries.length },
      back ++ String.join (log.entries.map fun e => fitted columns e.render ++ "\n"))

def add (log : Log) (message : String) : Log × String :=
  let log := { log with entries := log.entries ++ [Entry.pending message] }
  log.redraw (log.entries.length - 1)

/-- A note on a frozen entry, or on one that does not exist, changes and writes nothing. -/
def note (log : Log) (now index : Nat) (n : Note) : Log × String :=
  match (log.entries[index]?).bind fun e => e.note? now n with
  | some e => { log with entries := log.entries.set index e }.redraw index
  | none => (log, "")

end Log

inductive Step
  | add (message : String)
  | note (index : Nat) (note : Note)
deriving DecidableEq, Repr

namespace Log

def step (log : Log) (now : Nat) : Step → Log × String
  | .add message => log.add message
  | .note index n => log.note now index n

def replay (log : Log) : List (Nat × Step) → Log × List (Nat × String)
  | [] => (log, [])
  | (now, s) :: rest =>
    let (log, text) := log.step now s
    let (log, written) := replay log rest
    (log, if text = "" then written else (now, text) :: written)

end Log
end FleetControl.Progress
