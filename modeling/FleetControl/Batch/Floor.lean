import FleetControl.Batch.Outcome
import FleetControl.Cloud
import FleetControl.Progress.Log

/-!
The run of a batch. Every item is a job that is queued until a permit is free, sends its request,
and may then watch the state of its resource. Jobs with a permit have an instant at which they are
due; the run takes the job that is due first, of several the one whose timer was set first, and lets
it make one move. A job that has ended gives its permit back, and the first queued job takes it. Each
move leaves dated events, from which progress lines and calls to the cloud can be read.
-/
namespace FleetControl.Batch

open Progress

abbrev Result := Except ItemError (Option FleetControl.Record)

inductive Phase
  | queued
  | sending (answerAt : Nat) (fate : Fate)
  | watching (deadline : Nat) (watch : Watch) (record : Option FleetControl.Record)
  | ended (result : Result)

/-- `stamp` orders the timers of jobs by when they were set. -/
structure Job where
  token : String
  uuid : String
  stamp : Nat
  phase : Phase

inductive Happening
  | noted (note : Note)
  | sent (request : Request)
  | polled

structure Event where
  time : Nat
  position : Nat
  what : Happening

/-- What stays the same throughout a run. `cancelAt` is the instant from which on the wait of the
item at a position is cancelled, and `clock` the time of day at instant zero. -/
structure Setup where
  cloud : Cloud
  command : Command
  waiter : Option Waiter
  cancelAt : Nat → Option Nat
  clock : TimeOfDay

structure Floor where
  now : Nat
  free : Nat
  stamps : Nat
  jobs : List Job
  events : List Event

namespace Setup

def timeOfDay (s : Setup) (now : Nat) : TimeOfDay := ⟨s.clock.seconds + now / 1000⟩

def due? (s : Setup) (position : Nat) : Phase → Option Nat
  | .queued => none
  | .sending t _ => some t
  | .watching deadline watch _ =>
    let t := watch.due deadline
    some (((s.cancelAt position).map (min t)).getD t)
  | .ended _ => none

def message (s : Setup) (j : Job) (stage : String) : Happening :=
  .noted (.message s!"{s.command.describe j.uuid}: {stage}")

def pollFailure (failure : Option ApiError) : List Happening :=
  (failure.map fun e => .noted (.details "poll failed: " e.advice)).toList

def aborted (position : Nat) (j : Job) (text : String) : Result :=
  .error (.aborted j.token (panicText position text))

def afterAnswer (s : Setup) (now position : Nat) (j : Job) : Fate → Phase × List Happening
  | .panic text => (.ended (aborted position j text), [])
  | .error e =>
    (.ended (.error (.remote j.token e)), [s.message j "failed", .noted (.fail e.advice)])
  | .ok record =>
    match s.waiter with
    | none => (.ended (.ok record), [s.message j "request sent", .noted .done])
    | some w =>
      let waiting := s.message j s!"waiting for {w.target}"
      match w.deadline? now with
      | none => (.ended (aborted position j Overflow.deadline.message), [waiting])
      | some deadline => (.watching deadline (.resting now) record, [waiting])

def afterWait (s : Setup) (position : Nat) (j : Job) (record : Option FleetControl.Record) :
    Ending → Phase × List Happening
  | .ok (.ok ()) => (.ended (.ok record), [s.message j "done", .noted .done])
  | .ok (.error e) =>
    (.ended (.error (.wait j.token e)),
      [s.message j "request sent, wait failed", .noted (.fail e.message)])
  | .error overflow => (.ended (aborted position j overflow.message), [])

/-- The move of a job that is due now. `count` is the number of polls of its resource so far. Of a wait
only the deadline is bounded here. -/
def move (s : Setup) (now position count : Nat) (j : Job) : Phase × List Happening :=
  match j.phase with
  | .queued => (.queued, [])
  | .ended r => (.ended r, [])
  | .sending _ fate => s.afterAnswer now position j fate
  | .watching deadline watch record =>
    if ((s.cancelAt position).filter (· ≤ now)).isSome then
      s.afterWait position j record (.ok (.error .cancelled))
    else match s.waiter with
      | none => (.ended (.ok record), [])
      | some w =>
        match w.turn .exact deadline now count watch with
        | .polls =>
          let reply := s.cloud.poll s.command.kind j.uuid count
          (.watching deadline (Watch.poll now reply) record, [.polled])
        | .rests wake failure => (.watching deadline (.resting wake) record, pollFailure failure)
        | .ends ending failure =>
          let (phase, events) := s.afterWait position j record ending
          (phase, pollFailure failure ++ events)

end Setup

namespace Floor

def put (f : Floor) (position : Nat) (j : Job) (phase : Phase) (whats : List Happening) : Floor :=
  { f with
    stamps := f.stamps + 1
    jobs := f.jobs.set position { j with stamp := f.stamps, phase }
    events := f.events ++ whats.map fun what => ⟨f.now, position, what⟩ }

def isSent : Happening → Bool
  | .sent _ => true
  | _ => false

def isPolled : Happening → Bool
  | .polled => true
  | _ => false

def sentCount (f : Floor) : Nat := f.events.countP fun e => isSent e.what

def pollCount (f : Floor) (uuid : String) : Nat :=
  f.events.countP fun e => isPolled e.what && ((f.jobs[e.position]?).map (·.uuid)) == some uuid

def isQueued (j : Job) : Bool :=
  match j.phase with
  | .queued => true
  | _ => false

def grant (s : Setup) (f : Floor) (position : Nat) (j : Job) : Floor :=
  let request := s.command.request j.uuid
  let change := s.cloud.change f.sentCount request
  f.put position j (.sending (f.now + change.delay) change.fate)
    [.noted (.start (s.timeOfDay f.now)), s.message j "sending request", .sent request]

def offer (s : Setup) (f : Floor) : Floor :=
  let position := f.jobs.findIdx isQueued
  match f.free, f.jobs[position]? with
  | free + 1, some j => grant s { f with free } position j
  | _, _ => f

def release (s : Setup) (f : Floor) : Floor := offer s { f with free := f.free + 1 }

def earlier (a b : Nat × Nat × Nat) : Nat × Nat × Nat :=
  if b.1 < a.1 ∨ (b.1 = a.1 ∧ b.2.1 < a.2.1) then b else a

def timers (s : Setup) (f : Floor) : List (Nat × Nat × Nat) :=
  (f.jobs.zipIdx).filterMap fun (j, position) =>
    (s.due? position j.phase).map fun t => (t, j.stamp, position)

def next? (s : Setup) (f : Floor) : Option (Nat × Nat × Nat) :=
  match timers s f with
  | [] => none
  | t :: rest => some (rest.foldl earlier t)

def hasEnded : Phase → Bool
  | .ended _ => true
  | _ => false

def moved (s : Setup) (f : Floor) (time position : Nat) (j : Job) : Floor :=
  let now := max f.now time
  let (phase, whats) := s.move now position (f.pollCount j.uuid) j
  { f with now }.put position j phase whats

def step (s : Setup) (f : Floor) (time position : Nat) : Floor :=
  match f.jobs[position]? with
  | none => f
  | some j =>
    let g := moved s f time position j
    if (g.jobs[position]?).any (hasEnded ·.phase) then release s g else g

/-- Goes on until no job is due. Polls without an interval may keep a job due for ever; then nothing
comes of it. -/
def loop (s : Setup) (f : Floor) : Option Floor :=
  match next? s f with
  | none => some f
  | some (time, _, position) => step s f time position |>.loop s
partial_fixpoint

def start (permits now : Nat) (items : List (String × String)) : Floor :=
  ⟨now, permits, 0, items.map fun (token, uuid) => ⟨token, uuid, 0, .queued⟩, []⟩

def letIn (s : Setup) : Nat → Floor → Floor
  | 0, f => f
  | n + 1, f => letIn s n (offer s f)

def opening (s : Setup) (permits now : Nat) (items : List (String × String)) : Floor :=
  letIn s items.length (start permits now items)

def run (s : Setup) (permits now : Nat) (items : List (String × String)) : Option Floor :=
  loop s (opening s permits now items)

def result (j : Job) : Result :=
  match j.phase with
  | .ended r => r
  | _ => .error (.aborted j.token "not finished")

def outcome (f : Floor) : Outcome (Option FleetControl.Record) :=
  ⟨f.jobs.map fun j => ⟨j.token, j.uuid, result j⟩⟩

def noteStep? (e : Event) : Option (Nat × Progress.Step) :=
  match e.what with
  | .noted n => some (e.time, .note e.position n)
  | _ => none

def logSteps (s : Setup) (began : Nat) (f : Floor) : List (Nat × Progress.Step) :=
  (f.jobs.map fun j => (began, .add (s.command.describe j.uuid))) ++ f.events.filterMap noteStep?

def sent (f : Floor) : List (Nat × Request) :=
  f.events.filterMap fun e => match e.what with
    | .sent r => some (e.time, r)
    | _ => none

def calls (f : Floor) : List (Nat × Request) :=
  f.events.filterMap fun e => match e.what with
    | .sent r => some (e.position, r)
    | _ => none

def polls (f : Floor) : List (Nat × String) :=
  f.events.filterMap fun e => match e.what with
    | .polled => (f.jobs[e.position]?).map fun j => (e.time, j.uuid)
    | _ => none

end Floor
end FleetControl.Batch
