import FleetControl.Batch
import FleetControl.CommandLine.Invocation
import FleetControl.Settings
import FleetControl.Text.Lower

namespace FleetControl

open CommandLine

def Batch.Operator.ofLine : Option String → Operator
  | none => ⟨0, .fails "stream did not contain valid UTF-8"⟩
  | some line =>
    let reply := Text.lower (Text.trim line)
    ⟨0, .answers (reply == "y" || reply == "yes")⟩

def Batch.promptText (question : String) : String := s!"{question} [y/N]: "

namespace CommandLine.Flags

def settings (f : Flags) (s : Settings) : Settings := s.withFlags f.workers f.clientTimeout

def waitOptions (f : Flags) (s : Settings) : Option Batch.WaitOptions :=
  if f.wait then some ⟨s.interval, s.clientTimeout * 1000⟩ else none

def batchOptions (f : Flags) (s : Settings) (cancelAt : Option Nat) : Batch.Options where
  exactlyOne := false
  unconfirmed := s.unconfirmed
  confirm := !f.force
  workers := some (max s.workers 1)
  wait := f.waitOptions s
  cancelAt
  itemCancels := []

end CommandLine.Flags

structure Dispatched where
  result : Except ProgramError Unit
  catalog : Catalog
  prompts : List String
  floor : Option Batch.Floor
  steps : List (Nat × Progress.Step)
  printed : Printed

namespace Dispatched

def refused (c : Catalog) (e : ProgramError) : Dispatched := ⟨.error e, c, [], none, [], .nothing⟩

def verdict {α : Type} (o : Batch.Outcome α) : Except ProgramError Unit :=
  if o.hasFailures then .error (.partialFailure o.failed o.items.length) else .ok ()

def ofSent (format : OutputFormat) (s : Batch.Sent) : Dispatched :=
  match s.result with
  | .error e => ⟨.error (.batch e), s.catalog, s.prompts, s.floor, s.steps, .nothing⟩
  | .ok o =>
    ⟨verdict o, s.catalog, s.prompts, s.floor, s.steps, Report.outcome format Report.resultJson o⟩

def ofRecords (format : OutputFormat) (c : Catalog) :
    Except BatchError (List FleetControl.Record) → Dispatched
  | .error e => refused c (.batch e)
  | .ok rs => ⟨.ok (), c, [], none, [], ⟨Report.records format rs, ""⟩⟩

def err (d : Dispatched) (progress : String) : String :=
  String.join (d.prompts.map Batch.promptText) ++ progress ++ d.printed.err

end Dispatched

inductive Intent
  | inspect (kind : Kind)
  | load (storage : String)
  | change (command : Command)
deriving DecidableEq, Repr

namespace CommandLine.Action

def change : Except Rejection Command → Except ProgramError Intent
  | .ok command => .ok (.change command)
  | .error why => .error (.batch (.rejected why))

def intent : Action → Except ProgramError Intent
  | startServers => .ok (.change .startServer)
  | stopServers stopType => .ok (.change (.stopServer stopType))
  | restartServers stopType timeoutAction => .ok (.change (.restartServer stopType timeoutAction))
  | deleteServers withStorages => .ok (.change (.deleteServer withStorages))
  | load storage => match Text.notBlank? storage with
    | some token => .ok (.load token)
    | none => .error (.rejected Rejection.noStorage.message)
  | eject => .ok (.change .ejectCdrom)
  | modifyStorages title size => change (Command.modifyStorage? title size)
  | deleteStorages => .ok (.change .deleteStorage)
  | modifyNetworks name definitions => change (Command.modifyNetwork? name definitions)
  | deleteNetworks => .ok (.change .deleteNetwork)
  | modifyRouters name => change (Command.modifyRouter? name)
  | deleteRouters => .ok (.change .deleteRouter)
  | display kind => .ok (.inspect kind)

def wantsOne : Action → Bool
  | load _ | eject => true
  | _ => false

end CommandLine.Action

namespace CommandLine.Invocation

def send (i : Invocation) (cloud : Cloud) (c : Catalog) (command : Command) (o : Batch.Options)
    (operator : Batch.Operator) (clock : Progress.TimeOfDay) : Option Dispatched :=
  let o := { o with exactlyOne := i.action.wantsOne }
  (Batch.send cloud c i.tokens command o operator clock).map (.ofSent i.flags.output)

def dispatch (i : Invocation) (cloud : Cloud) (o : Batch.Options) (operator : Batch.Operator)
    (clock : Progress.TimeOfDay) : Option Dispatched :=
  match i.action.intent with
  | .error e => some (.refused Catalog.empty e)
  | .ok (.inspect kind) =>
    let (c, records) := Batch.inspect cloud Catalog.empty kind i.tokens
    some (.ofRecords i.flags.output c records)
  | .ok (.load storage) =>
    match Catalog.empty.resolveOne cloud .storage storage with
    | (c, .error e) => some (.refused c (.batch (.resolve e)))
    | (c, .ok uuid) => i.send cloud c (.loadCdrom uuid) o operator clock
  | .ok (.change command) => i.send cloud Catalog.empty command o operator clock

end CommandLine.Invocation
end FleetControl
