import FleetControl.Batch.Floor
import FleetControl.Catalog

/-!
Batches: one command for all tokens. Every token has to lead to one resource before anything is
sent, and a batch larger than the operator allows has to be confirmed.
-/
namespace FleetControl.Batch

structure WaitOptions where
  interval : Nat
  timeout : Nat
deriving DecidableEq, Repr

/-- Without `workers` any number of items may be under way at once. `itemCancels` pairs positions with
the instants from which on the waits of the items there are cancelled. -/
structure Options where
  exactlyOne : Bool
  unconfirmed : Nat
  confirm : Bool
  workers : Option Nat
  wait : Option WaitOptions
  cancelAt : Option Nat
  itemCancels : List (Nat × Nat)
deriving DecidableEq, Repr

def maxPermits : Nat := Nat.pow 2 61 - 1

def permits (risk : Risk) (workers : Option Nat) : Nat :=
  match risk with
  | .high => 1
  | .low => max 1 (min (workers.getD maxPermits) maxPermits)

inductive Confirmation
  | answers (yes : Bool)
  | interrupts
  | fails (reason : String)
deriving DecidableEq, Repr

structure Operator where
  delay : Nat
  reply : Confirmation
deriving DecidableEq, Repr

structure Clearance where
  catalog : Catalog
  prompts : List String
  items : Except BatchError (List (String × String))

structure Sent where
  result : Except BatchError (Outcome (Option FleetControl.Record))
  catalog : Catalog
  prompts : List String
  floor : Option Floor
  steps : List (Nat × Progress.Step)

namespace Sent

def requests (r : Sent) : List (Nat × Request) := (r.floor.map Floor.sent).getD []

def polls (r : Sent) : List (Nat × String) := (r.floor.map Floor.polls).getD []

end Sent

namespace Options

def cancelOf (o : Options) (position : Nat) : Option Nat :=
  let own := (o.itemCancels.filter fun c => c.1 == position).map (·.2)
  (o.cancelAt.toList ++ own).min?

end Options

def waiter? (command : Command) (wait : Option WaitOptions) : Option Waiter := do
  let o ← wait
  let e ← command.expectation?
  some ⟨e.target, e.failureStates, o.interval, o.timeout⟩

def refusal? (tokens : List String) (o : Options) : Option Rejection :=
  if o.exactlyOne ∧ tokens.length ≠ 1 then some .notOneIdentifier
  else if tokens = [] then some .noIdentifier
  else none

def question (count : Nat) (kind : Kind) : String :=
  s!"About to run {count} actions on {kind.name}s. Continue?"

def needsConfirmation (o : Options) (count : Nat) : Bool := o.confirm && o.unconfirmed < count

/-- Whether the operator lets the batch go on, and when that is settled. A cancellation before or
together with the reply counts as a refusal. -/
def settle (o : Options) (now : Nat) (operator : Operator) : Nat × Except BatchError Unit :=
  let t := now + operator.delay
  match o.cancelAt.filter (· ≤ t), operator.reply with
  | some c, _ => (max now c, .error .cancelled)
  | none, .answers true => (t, .ok ())
  | none, .answers false => (t, .error .cancelled)
  | none, .interrupts => (t, .error .cancelled)
  | none, .fails reason => (t, .error (.prompt reason))

def setup (cloud : Cloud) (command : Command) (o : Options) (clock : Progress.TimeOfDay) : Setup :=
  ⟨cloud, command, waiter? command o.wait, o.cancelOf, clock⟩

def confirm (o : Options) (operator : Operator) (kind : Kind) (c : Catalog)
    (items : List (String × String)) : Clearance :=
  if needsConfirmation o items.length then
    let (t, verdict) := settle o c.now operator
    ⟨{ c with now := t }, [question items.length kind], verdict.map fun _ => items⟩
  else ⟨c, [], .ok items⟩

def clear (cloud : Cloud) (c : Catalog) (tokens : List String) (command : Command) (o : Options)
    (operator : Operator) : Clearance :=
  match refusal? tokens o with
  | some why => ⟨c, [], .error (.rejected why)⟩
  | none =>
    match c.resolve cloud command.kind tokens with
    | (c, .error e) => ⟨c, [], .error (.resolve e)⟩
    | (c, .ok uuids) => confirm o operator command.kind c (tokens.zip uuids)

def dispatch (cloud : Cloud) (command : Command) (o : Options) (clock : Progress.TimeOfDay) (c : Catalog)
    (prompts : List String) (items : List (String × String)) : Option Sent :=
  let s := setup cloud command o clock
  (Floor.run s (permits command.risk o.workers) c.now items).map fun f =>
    ⟨.ok f.outcome, { c with now := f.now }, prompts, some f, f.logSteps s c.now⟩

def send (cloud : Cloud) (c : Catalog) (tokens : List String) (command : Command) (o : Options)
    (operator : Operator) (clock : Progress.TimeOfDay) : Option Sent :=
  let b := clear cloud c tokens command o operator
  match b.items with
  | .error e => some ⟨.error e, b.catalog, b.prompts, none, []⟩
  | .ok items => dispatch cloud command o clock b.catalog b.prompts items

def inspect (cloud : Cloud) (c : Catalog) (kind : Kind) (tokens : List String) :
    Catalog × Except BatchError (List FleetControl.Record) :=
  if tokens = [] then (c, .error (.rejected .noIdentifier))
  else
    let (c, records) := c.find cloud kind tokens
    (c, records.mapError .resolve)

end FleetControl.Batch
