import FleetControl.CommandLine.Invocation

namespace FleetControl.CommandLine

inductive Use
  | switch
  | text
  | path
  | choice (words : List String)
  | number (bound : Nat) (signed : Bool)
  | help
  | version
deriving DecidableEq, Repr

structure Flag where
  name : String
  letter : Option Char
  use : Use
  repeatable : Bool
deriving DecidableEq, Repr

inductive Value
  | on
  | text (value : String)
  | number (value : Nat)
deriving DecidableEq, Repr

namespace Flag

def long (name : String) (use : Use) : Flag := ⟨name, none, use, false⟩

def takesValue (f : Flag) : Bool :=
  match f.use with
  | .switch | .help | .version => false
  | _ => true

end Flag

def digits? (cs : List Char) : Option Nat :=
  if cs.isEmpty ∨ !cs.all Char.isDigit then none
  else some (cs.foldl (fun n c => n * 10 + (c.toNat - 0x30)) 0)

def number? (signed : Bool) : List Char → Option Nat
  | '+' :: rest => digits? rest
  | '-' :: rest => if signed then (digits? rest).filter (· = 0) else none
  | cs => digits? cs

def Use.read (use : Use) (s : String) : Except Usage Value :=
  match use with
  | path => if s = "" then .error .unsuitableValue else .ok (.text s)
  | choice words => if s ∈ words then .ok (.text s) else .error .unsuitableValue
  | number bound signed =>
    match (number? signed s.toList).filter (· < bound) with
    | some n => .ok (.number n)
    | none => .error .malformedValue
  | _ => .ok (.text s)

def outputs : List (String × OutputFormat) := [("human", .human), ("json", .json)]

def stopTypes : List (String × StopType) := [StopType.soft, .hard].map fun t => (t.name, t)

def timeoutActions : List (String × TimeoutAction) :=
  [TimeoutAction.ignore, .destroy].map fun t => (t.name, t)

def words {α : Type} (table : List (String × α)) : Use := .choice (table.map (·.1))

def sharedFlags : List Flag :=
  [.long "config" .path, .long "log-level" (.choice (LogLevel.all.map LogLevel.name)),
    ⟨"output", some 'o', words outputs, false⟩, .long "wait" .switch,
    ⟨"force", some 'f', .switch, false⟩, .long "workers" (.number (Nat.pow 2 64) false),
    .long "client-timeout" (.number (Nat.pow 2 64) false),
    ⟨"help", some 'h', .help, false⟩]

def versionFlag : Flag := ⟨"version", some 'V', .version, false⟩

inductive Verb
  | start
  | stop
  | restart
  | delete
  | load
  | eject
  | modify
  | display
deriving DecidableEq, Repr

namespace Verb

def name : Verb → String
  | start => "start"
  | stop => "stop"
  | restart => "restart"
  | delete => "delete"
  | load => "load"
  | eject => "eject"
  | modify => "modify"
  | display => "show"

def ofKind : Kind → List Verb
  | .server => [start, stop, restart, delete, load, eject, display]
  | _ => [modify, delete, display]

def ofName? (kind : Kind) (s : String) : Option Verb := (ofKind kind).find? fun v => v.name == s

end Verb

def ownFlags : Kind → Verb → List Flag
  | .server, .stop => [.long "type" (words stopTypes)]
  | .server, .restart => [.long "type" (words stopTypes), .long "timeout-action" (words timeoutActions)]
  | .server, .delete => [.long "delete-storages" .switch]
  | .server, .load => [.long "storage" .text]
  | .storage, .modify => [.long "title" .text, .long "size" (.number (Nat.pow 2 32) true)]
  | .network, .modify => [.long "name" .text, ⟨"ip-network", none, .text, true⟩]
  | .router, .modify => [.long "name" .text]
  | _, _ => []

inductive Level
  | program
  | kind (kind : Kind)
  | verb (kind : Kind) (verb : Verb)
deriving DecidableEq, Repr

namespace Level

def flags : Level → List Flag
  | program => sharedFlags ++ [versionFlag]
  | kind _ => sharedFlags
  | verb k v => sharedFlags ++ ownFlags k v

def below? (level : Level) (s : String) : Option Level :=
  match level with
  | program => (Kind.ofName? s).map kind
  | kind k => (Verb.ofName? k s).map (verb k)
  | verb _ _ => none

def takesTokens : Level → Bool
  | verb _ _ => true
  | _ => false

def flag? (level : Level) (name : String) : Option Flag := level.flags.find? fun f => f.name == name

def letter? (level : Level) (c : Char) : Option Flag := level.flags.find? fun f => f.letter == some c

end Level
end FleetControl.CommandLine
