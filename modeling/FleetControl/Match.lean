import FleetControl.ApiError
import FleetControl.Record
import FleetControl.Text.Blank
import FleetControl.Text.Lower

/-!
Which records a token refers to. A token refers to a record by its exact uuid, or by one of its
names, the blanks around the token and the case of letters left out of account.
-/
namespace FleetControl

inductive Reason
  | exactUuid
  | exactName
  | caseInsensitiveName
deriving DecidableEq, Repr

namespace Reason

def name : Reason → String
  | exactUuid => "exact-uuid"
  | exactName => "exact-name"
  | caseInsensitiveName => "case-insensitive-name"

def all : List Reason := [exactUuid, exactName, caseInsensitiveName]

end Reason

def matchUuid (token uuid : String) : Option Reason :=
  if uuid ≠ "" ∧ token = uuid then some .exactUuid else none

def matchName (token name : String) : Option Reason :=
  let token := Text.trim token
  if token = "" ∨ name = "" then none
  else if token = name then some .exactName
  else if Text.lower token = Text.lower name then some .caseInsensitiveName
  else none

structure Candidate where
  uuid : String
  reasons : List Reason
deriving DecidableEq, Repr

namespace Candidate

def add (c : Candidate) (r : Reason) : Candidate :=
  { c with reasons := Reason.all.filter fun x => x ∈ c.reasons ∨ x = r }

end Candidate

inductive ResolveError
  | notFound (token : String)
  | ambiguous (token : String) (candidates : List String)
  | notCached (kind : Kind)
  | fetch (kind : Kind) (source : ApiError)
deriving DecidableEq, Repr

def ResolveError.message : ResolveError → String
  | notFound token => s!"nothing found matching '{token}'"
  | ambiguous token candidates =>
    let listed := ", ".intercalate candidates
    s!"'{token}' is ambiguous, found multiple matches: {listed}. Use the UUID to specify"
  | notCached kind => s!"{kind.name} cache is not initialized"
  | fetch kind source => s!"failed to list {kind.name}s: {source.message}"

structure Match where
  token : String
  candidates : List Candidate
deriving DecidableEq, Repr

namespace Match

def start (token : String) : Match := ⟨token, []⟩

def hit (uuid : String) (r : Reason) : List Candidate → List Candidate
  | [] => [⟨uuid, [r]⟩]
  | c :: rest => if c.uuid = uuid then c.add r :: rest else c :: hit uuid r rest

def add (m : Match) (uuid : String) (reason : Option Reason) : Match :=
  match reason with
  | none => m
  | some r => { m with candidates := hit uuid r m.candidates }

def uuids (m : Match) : List String := m.candidates.map (·.uuid)

def reasons? (m : Match) (uuid : String) : Option (List Reason) :=
  (m.candidates.find? fun c => c.uuid == uuid).map (·.reasons)

def only (m : Match) : Except ResolveError String :=
  match m.candidates with
  | [] => .error (.notFound m.token)
  | [c] => .ok c.uuid
  | _ => .error (.ambiguous m.token m.uuids)

def addRecord (m : Match) (r : Record) : Match :=
  r.names.foldl (fun m name => m.add r.uuid (matchName m.token name))
    (m.add r.uuid (matchUuid m.token r.uuid))

def ofRecords (token : String) (records : List Record) : Match :=
  records.foldl addRecord (start token)

end Match
end FleetControl
