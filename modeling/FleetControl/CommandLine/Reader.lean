import FleetControl.CommandLine.Grammar

/-!
Reading a command line. A value may follow its flag after an equals sign or as the next argument;
letters may be joined. After two dashes everything is a token. The value of a flag that stands alone
is looked at only when the next flag or token comes, so a fault further right may come first.
-/
namespace FleetControl.CommandLine

/-- What has been read at one level. `unsettled` is a flag whose value, if it has come, is still to be
looked at. -/
structure Scan where
  made : List (String × Value)
  unsettled : Option (Flag × Option String)
  tokens : List String
deriving DecidableEq, Repr

namespace Scan

def empty : Scan := ⟨[], none, []⟩

def isMade (s : Scan) (f : Flag) : Bool := s.made.any fun m => m.1 == f.name

def make (s : Scan) (f : Flag) (v : Value) : Scan := { s with made := s.made ++ [(f.name, v)] }

def store (s : Scan) (f : Flag) (value : String) : Except Usage Scan :=
  if s.isMade f ∧ !f.repeatable then .error .repeatedFlag
  else (f.use.read value).map (s.make f)

def settle (s : Scan) : Except Usage Scan :=
  match s.unsettled with
  | none => .ok s
  | some (f, some value) => { s with unsettled := none }.store f value
  | some (_, none) => .error .unsuitableValue

def switch (s : Scan) (f : Flag) : Except Usage Scan := do
  let s ← s.settle
  match f.use with
  | .help => throw .help
  | .version => throw .version
  | _ => if s.isMade f then throw .repeatedFlag else pure (s.make f .on)

def valued (s : Scan) (f : Flag) (attached : Option String) : Except Usage Scan := do
  let s ← s.settle
  match attached with
  | some value => s.store f value
  | none => pure { s with unsettled := some (f, none) }

def token (s : Scan) (t : String) : Except Usage Scan := do
  let s ← s.settle
  pure { s with tokens := s.tokens ++ [t] }

def awaits (s : Scan) : Bool :=
  match s.unsettled with
  | some (_, none) => true
  | _ => false

def await (s : Scan) (value : String) : Scan :=
  { s with unsettled := s.unsettled.map fun (f, _) => (f, some value) }

def letters (level : Level) (s : Scan) : List Char → Except Usage Scan
  | [] => .ok s
  | c :: rest =>
    match level.letter? c with
    | none => .error .unknownFlag
    | some f =>
      if f.takesValue then
        s.valued f (match rest with
          | [] => none
          | '=' :: value => some (String.ofList value)
          | value => some (String.ofList value))
      else do letters level (← s.switch f) rest

def named (level : Level) (s : Scan) (cs : List Char) : Except Usage Scan :=
  let attached := match cs.dropWhile (· != '=') with
    | [] => none
    | _ :: value => some (String.ofList value)
  match level.flag? (String.ofList (cs.takeWhile (· != '='))) with
  | none => .error .unknownFlag
  | some f =>
    if f.takesValue then s.valued f attached
    else if attached.isSome then .error .needlessValue
    else s.switch f

end Scan

inductive Look
  | dashes
  | named (text : List Char)
  | letters (text : List Char)
  | plain

def look (arg : String) : Look :=
  match arg.toList with
  | ['-', '-'] => .dashes
  | '-' :: '-' :: rest => .named rest
  | ['-'] => .plain
  | '-' :: rest => .letters rest
  | _ => .plain

def helpOn (level : Level) : List String → Usage
  | [] => .help
  | word :: rest =>
    match level.below? word with
    | some below => helpOn below rest
    | none => if word = "help" ∧ !level.takesTokens ∧ rest = [] then .help else .unknownCommand

inductive Reading
  | complete (scan : Scan)
  | descends (scan : Scan) (below : Level) (rest : List String)

def afterDashes (level : Level) (s : Scan) : List String → Except Usage Reading
  | [] => .ok (.complete s)
  | arg :: rest =>
    if level.takesTokens then do afterDashes level (← s.token arg) rest
    else if (level.below? arg).isSome ∨ arg = "help" then .error .unknownFlag
    else .error .unknownCommand

def readLevel (level : Level) (s : Scan) : List String → Except Usage Reading
  | [] => .ok (.complete s)
  | arg :: rest =>
    match if s.awaits then none else level.below? arg with
    | some below => .ok (.descends s below rest)
    | none =>
      if arg = "help" ∧ !s.awaits ∧ !level.takesTokens then .error (helpOn level rest)
      else match look arg with
        | .dashes => afterDashes level s rest
        | .named text => do readLevel level (← s.named level text) rest
        | .letters text => do readLevel level (← s.letters level text) rest
        | .plain =>
          if s.awaits then readLevel level (s.await arg) rest
          else if level.takesTokens then do readLevel level (← s.token arg) rest
          else .error .unknownCommand

def noCommand (s : Scan) : Usage := if s.made.isEmpty then .helpInPlaceOfCommand else .missingCommand

def readLevels : (depth : Nat) → Level → List String → Except Usage (List Scan × Level)
  | 0, _, _ => .error .missingCommand
  | depth + 1, level, args => do
    match ← readLevel level .empty args with
    | .complete s =>
      let s ← s.settle
      if level.takesTokens then pure ([s], level) else throw (noCommand s)
    | .descends s below rest =>
      let (scans, last) ← readLevels depth below rest
      pure ((← s.settle) :: scans, last)

def lookup (scans : List Scan) (name : String) : List Value :=
  let made (s : Scan) : List Value := (s.made.filter fun m => m.1 == name).map (·.2)
  scans.foldl (fun found s => if (made s).isEmpty then found else made s) []

def textsOf (vs : List Value) : List String :=
  vs.filterMap fun v => match v with
    | .text s => some s
    | _ => none

def text? (scans : List Scan) (name : String) : Option String := (textsOf (lookup scans name)).head?

def numberOf? (scans : List Scan) (name : String) : Option Nat :=
  (lookup scans name).findSome? fun v => match v with
    | .number n => some n
    | _ => none

def isOn (scans : List Scan) (name : String) : Bool := !(lookup scans name).isEmpty

def chosen {α : Type} (scans : List Scan) (name : String) (table : List (String × α)) (usual : α) : α :=
  ((text? scans name).bind fun s => (table.find? fun w => w.1 == s).map (·.2)).getD usual

def flagsOf (scans : List Scan) : Flags where
  config := text? scans "config"
  logLevel := chosen scans "log-level" (LogLevel.all.map fun l => (l.name, l)) .off
  output := chosen scans "output" outputs .human
  wait := isOn scans "wait"
  force := isOn scans "force"
  workers := numberOf? scans "workers"
  clientTimeout := numberOf? scans "client-timeout"

def actionOf (scans : List Scan) : Kind → Verb → Action
  | .server, .start => .startServers
  | .server, .stop => .stopServers (chosen scans "type" stopTypes .soft)
  | .server, .restart =>
    .restartServers (chosen scans "type" stopTypes .soft)
      (chosen scans "timeout-action" timeoutActions .ignore)
  | .server, .delete => .deleteServers (isOn scans "delete-storages")
  | .server, .load => .load (text? scans "storage")
  | .server, .eject => .eject
  | .storage, .modify => .modifyStorages (text? scans "title") (numberOf? scans "size")
  | .storage, .delete => .deleteStorages
  | .network, .modify => .modifyNetworks (text? scans "name") (textsOf (lookup scans "ip-network"))
  | .network, .delete => .deleteNetworks
  | .router, .modify => .modifyRouters (text? scans "name")
  | .router, .delete => .deleteRouters
  | kind, _ => .display kind

def parse (args : List String) : Except Usage Invocation := do
  match ← readLevels 3 .program args with
  | (scans, .verb kind verb) =>
    pure ⟨flagsOf scans, actionOf scans kind verb, scans.flatMap Scan.tokens⟩
  | _ => throw .missingCommand

end FleetControl.CommandLine
