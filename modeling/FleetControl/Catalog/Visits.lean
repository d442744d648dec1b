import FleetControl.Catalog

namespace FleetControl.Catalog

structure Caller where
  kind : Kind
  token : String
  arrival : Nat
deriving DecidableEq, Repr

/-- `listing` is the number of the listing that the caller makes itself, if it makes one. -/
structure Visit where
  start : Nat
  finish : Nat
  listing : Option Nat
  answer : Except ResolveError (List Record)

structure Desk where
  catalog : Catalog
  freeAt : Kind → Nat
  callers : List (Caller × Option Visit)

namespace Desk

def turn? (d : Desk) : Caller × Option Visit → Option Nat
  | (caller, none) => some (max caller.arrival (d.freeAt caller.kind))
  | (_, some _) => none

def earlier (a b : Nat × Nat) : Nat × Nat := if b.1 < a.1 then b else a

def next? (d : Desk) : Option (Nat × Nat) :=
  let turns := d.callers.zipIdx.filterMap fun (entry, position) =>
    (d.turn? entry).map fun t => (t, position)
  match turns with
  | [] => none
  | t :: rest => some (rest.foldl earlier t)

def serve (cloud : Cloud) (d : Desk) (now : Nat) (caller : Caller) : Desk × Visit :=
  let count := d.catalog.listed.length
  let (c, answer) := d.catalog.ensure cloud caller.kind
  let listing := if count < c.listed.length then some count else none
  let finish := now + ((listing.map fun n => (cloud.list n caller.kind).delay).getD 0)
  let freeAt := fun kind => if kind = caller.kind then finish else d.freeAt kind
  ({ d with catalog := { c with now := max d.catalog.now finish }, freeAt },
    ⟨now, finish, listing, answer⟩)

def step (cloud : Cloud) (d : Desk) (now position : Nat) : Desk :=
  match d.callers[position]? with
  | none => d
  | some (caller, _) =>
    let (d, visit) := d.serve cloud now caller
    { d with callers := d.callers.set position (caller, some visit) }

def loop (cloud : Cloud) : Nat → Desk → Desk
  | 0, d => d
  | fuel + 1, d =>
    match d.next? with
    | none => d
    | some (now, position) => loop cloud fuel (d.step cloud now position)

def opened (c : Catalog) (callers : List Caller) : Desk :=
  ⟨c, fun _ => c.now, callers.map fun caller => (caller, none)⟩

def run (cloud : Cloud) (c : Catalog) (callers : List Caller) : Desk :=
  loop cloud callers.length (opened c callers)

end Desk

def Visit.resolve (v : Visit) (token : String) : Except ResolveError String :=
  v.answer.bind fun records => (Match.ofRecords token records).only

def join (cloud : Cloud) (c : Catalog) (calls : List (Kind × String)) :
    Catalog × List (Except ResolveError String) :=
  let d := Desk.run cloud c (calls.map fun (kind, token) => ⟨kind, token, c.now⟩)
  (d.catalog, d.callers.filterMap fun (caller, visit) => visit.map fun v => v.resolve caller.token)

end FleetControl.Catalog
