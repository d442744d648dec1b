import FleetControl.ApiError

/-!
Waiting for a resource to reach a state, on a clock of whole milliseconds. The state is polled at
once and then again an interval after each answer, or at the deadline if that is earlier. A wait
ends when the target or a failure state is seen, when the deadline passes, when it is cancelled, or
when its arithmetic overflows.
-/
namespace FleetControl

inductive WaitError
  | failed (state : String)
  | timedOut (target : String)
  | cancelled
deriving DecidableEq, Repr

def WaitError.message : WaitError → String
  | failed state => s!"resource entered failure state {state}"
  | timedOut target => s!"timed out waiting for state {target}"
  | cancelled => "wait cancelled"

structure Reply where
  delay : Nat
  answer : Except ApiError String

/-- The replies to successive polls; `none` is a poll that is never answered. The last one goes on
for ever, and without any no poll is answered. -/
abbrev PollScript := List (Option Reply)

def PollScript.reply? (s : PollScript) (n : Nat) : Option Reply :=
  (s[min n (s.length - 1)]?).join

/-- The clock ends here: no instant at or past `2 ^ 63` seconds can be named. -/
def clockEnd : Nat := Nat.pow 2 63 * 1000

def counterEnd : Nat := Nat.pow 2 32

inductive Overflow
  | deadline
  | wake
  | counter
deriving DecidableEq, Repr

def Overflow.message : Overflow → String
  | deadline | wake => "overflow when adding duration to instant"
  | counter => "attempt to add with overflow"

/-- Checked arithmetic ends with the clock and the counter. -/
inductive Arithmetic
  | checked
  | exact

namespace Arithmetic

def names : Arithmetic → Nat → Bool
  | checked, time => time < clockEnd
  | exact, _ => true

def counts : Arithmetic → Nat → Bool
  | checked, polls => polls < counterEnd
  | exact, _ => true

end Arithmetic

structure Waiter where
  target : String
  failureStates : List String
  interval : Nat
  timeout : Nat
deriving DecidableEq, Repr

inductive Watch
  | polling (arrival : Option (Nat × Except ApiError String))
  | resting (wake : Nat)

namespace Watch

def due (deadline : Nat) : Watch → Nat
  | polling none => deadline
  | polling (some (t, _)) => min t deadline
  | resting t => t

def poll (now : Nat) (reply : Option Reply) : Watch :=
  .polling (reply.map fun r => (now + r.delay, r.answer))

end Watch

abbrev Ending := Except Overflow (Except WaitError Unit)

inductive Turn
  | polls
  | rests (wake : Nat) (failure : Option ApiError)
  | ends (ending : Ending) (failure : Option ApiError)

structure Vigil (α : Type) where
  result : α
  finish : Nat
  polls : List Nat
  failures : List (Nat × ApiError)

abbrev Waited := Vigil (Except WaitError Unit)

def Vigil.returned (v : Vigil Ending) : Except Overflow Waited :=
  v.result.map fun result => ⟨result, v.finish, v.polls, v.failures⟩

/-- What a wait has done so far, the latest first. -/
structure Trail where
  polls : List Nat
  failures : List (Nat × ApiError)

namespace Trail

def empty : Trail := ⟨[], []⟩

def polled (now : Nat) (t : Trail) : Trail := { t with polls := now :: t.polls }

def noted (now : Nat) (failure : Option ApiError) (t : Trail) : Trail :=
  { t with failures := (failure.map fun e => (now, e)).toList ++ t.failures }

def close (ending : Ending) (finish : Nat) (t : Trail) : Vigil Ending :=
  ⟨ending, finish, t.polls.reverse, t.failures.reverse⟩

end Trail

namespace Waiter

def deadline? (w : Waiter) (now : Nat) : Option Nat :=
  if now + w.timeout < clockEnd then some (now + w.timeout) else none

def verdict (w : Waiter) : Except ApiError String → Option (Except WaitError Unit)
  | .error _ => none
  | .ok state =>
    if state = w.target then some (.ok ())
    else if state ∈ w.failureStates then some (.error (.failed state))
    else none

def failure? : Except ApiError String → Option ApiError
  | .error e => some e
  | .ok _ => none

/-- The turn of a wait after `count` polls. An answer that arrives at the deadline still counts. The
next wake is computed in full before it is held against the deadline. -/
def turn (w : Waiter) (arithmetic : Arithmetic) (deadline now count : Nat) : Watch → Turn
  | .resting _ => if arithmetic.counts (count + 1) then .polls else .ends (.error .counter) none
  | .polling none => .ends (.ok (.error (.timedOut w.target))) none
  | .polling (some (t, answer)) =>
    if deadline < t then .ends (.ok (.error (.timedOut w.target))) none
    else match w.verdict answer with
      | some result => .ends (.ok result) none
      | none =>
        if deadline ≤ now then .ends (.ok (.error (.timedOut w.target))) (failure? answer)
        else if arithmetic.names (now + w.interval) then
          .rests (min (now + w.interval) deadline) (failure? answer)
        else .ends (.error .wake) (failure? answer)

/-- Goes on with `watch` after `count` polls. A cancellation counts before anything else that is due
at its instant. Nothing comes of a wait that never ends. -/
def go (w : Waiter) (arithmetic : Arithmetic) (reply? : Nat → Option Reply) (cancelAt : Option Nat)
    (deadline count : Nat) (watch : Watch) (trail : Trail) : Option (Vigil Ending) :=
  let now := watch.due deadline
  match cancelAt.filter (· ≤ now) with
  | some t => some (trail.close (.ok (.error .cancelled)) t)
  | none =>
    match w.turn arithmetic deadline now count watch with
    | .polls =>
      w |>.go arithmetic reply? cancelAt deadline (count + 1) (Watch.poll now (reply? count))
        (trail.polled now)
    | .rests wake failure =>
      w |>.go arithmetic reply? cancelAt deadline count (.resting wake) (trail.noted now failure)
    | .ends ending failure => some ((trail.noted now failure).close ending now)
partial_fixpoint

def run? (w : Waiter) (arithmetic : Arithmetic) (reply? : Nat → Option Reply) (cancelAt : Option Nat)
    (start : Nat) : Option (Vigil Ending) :=
  match w.deadline? start with
  | none => some ⟨.error .deadline, start, [], []⟩
  | some deadline =>
    match cancelAt.filter (· ≤ start) with
    | some _ => some ⟨.ok (.error .cancelled), start, [], []⟩
    | none => w.go arithmetic reply? cancelAt deadline 0 (.resting start) .empty

def checked? (w : Waiter) (reply? : Nat → Option Reply) (cancelAt : Option Nat) (start : Nat) :
    Option (Except Overflow Waited) :=
  (w.run? .checked reply? cancelAt start).map (·.returned)

/-- Of the wait only its deadline is bounded. -/
def wait? (w : Waiter) (reply? : Nat → Option Reply) (cancelAt : Option Nat) (start : Nat) :
    Option Waited :=
  (w.run? .exact reply? cancelAt start).bind (·.returned.toOption)

end Waiter
end FleetControl
