import FleetControl.Command
import FleetControl.Match
import FleetControl.Wait

namespace FleetControl

inductive ItemError
  | remote (token : String) (source : ApiError)
  | wait (token : String) (source : WaitError)
  | aborted (token reason : String)
deriving DecidableEq, Repr

namespace ItemError

def token : ItemError → String
  | remote t _ | wait t _ | aborted t _ => t

def message : ItemError → String
  | remote token source => s!"{token}: {source.message}"
  | wait token source => s!"{token}: {source.message}"
  | aborted token reason => s!"{token}: task aborted: {reason}"

def shown : ItemError → String
  | remote _ source => source.advice
  | wait _ source => source.message
  | aborted _ reason => s!"task aborted: {reason}"

end ItemError

def panicText (task : Nat) (message : String) : String :=
  s!"task {task} panicked with message {Text.quoted message}"

inductive BatchError
  | rejected (why : Rejection)
  | resolve (source : ResolveError)
  | cancelled
  | prompt (reason : String)
deriving DecidableEq, Repr

def BatchError.message : BatchError → String
  | rejected why => why.message
  | resolve source => source.message
  | cancelled => "operation cancelled"
  | prompt reason => s!"failed to read confirmation: {reason}"

inductive ProgramError
  | rejected (message : String)
  | batch (source : BatchError)
  | partialFailure (failed total : Nat)
  | other (message : String)
deriving DecidableEq, Repr

namespace ProgramError

def message : ProgramError → String
  | rejected m => m
  | batch source => source.message
  | partialFailure failed total => s!"{failed} of {total} actions failed"
  | other m => m

def exitCode : ProgramError → Nat
  | rejected _ => 2
  | batch (.rejected _) => 2
  | batch (.resolve _) => 2
  | batch .cancelled => 1
  | partialFailure _ _ => 4
  | batch (.prompt _) => 3
  | other _ => 3

end ProgramError
end FleetControl
