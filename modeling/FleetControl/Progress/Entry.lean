namespace FleetControl.Progress

inductive Status
  | pending
  | inProgress
  | done
  | failed
deriving DecidableEq, Repr

namespace Status

def isTerminal : Status → Bool
  | done => true
  | failed => true
  | _ => false

def icon : Status → String
  | pending => "◯"
  | inProgress => "↻"
  | done => "✓"
  | failed => "✗"

end Status

structure TimeOfDay where
  seconds : Nat
deriving DecidableEq, Repr

namespace TimeOfDay

def twoDigits (n : Nat) : String := if n < 10 then s!"0{n}" else s!"{n}"

def render (t : TimeOfDay) : String :=
  ":".intercalate
    [twoDigits (t.seconds / 3600 % 24), twoDigits (t.seconds / 60 % 60), twoDigits (t.seconds % 60)]

end TimeOfDay

def durationText (milliseconds : Nat) : String :=
  let seconds := milliseconds / 1000
  if seconds < 1 then s!"{milliseconds}ms"
  else if seconds < 60 then s!"{seconds}s"
  else s!"{seconds / 60}m{seconds % 60}s"

structure Entry where
  message : String
  details : Option String
  status : Status
  startedAt : Option TimeOfDay
  started : Option Nat
  finished : Option Nat
deriving DecidableEq, Repr

inductive Note
  | start (clock : TimeOfDay)
  | message (text : String)
  | details (label text : String)
  | done
  | fail (reason : String)
deriving DecidableEq, Repr

namespace Entry

def pending (message : String) : Entry := ⟨message, none, .pending, none, none, none⟩

def change (e : Entry) (now : Nat) : Note → Entry
  | .start clock => { e with startedAt := some clock, started := some now, status := .inProgress }
  | .message text => { e with message := text }
  | .details label text => { e with details := some (label ++ text) }
  | .done => { e with status := .done, finished := some now }
  | .fail reason =>
    { e with status := .failed, details := some ("error: " ++ reason), finished := some now }

def note? (e : Entry) (now : Nat) (n : Note) : Option Entry :=
  if e.status.isTerminal then none else some (e.change now n)

def elapsed? (e : Entry) : Option Nat := do
  let started ← e.started
  let finished ← e.finished
  some (finished - started)

def render (e : Entry) : String :=
  let clock := (e.startedAt.map fun t => s!" [{t.render}]").getD ""
  let duration := if e.status.isTerminal then (e.elapsed?.map fun d => s!" ({durationText d})").getD ""
    else ""
  let details := (e.details.map fun d => s!" - {d}").getD ""
  s!"{e.status.icon} {e.message}" ++ clock ++ duration ++ details

end Entry
end FleetControl.Progress
