import FleetControl.CommandLine.Reader
import FleetControl.Dispatch
import FleetControl.FileTree
import FleetControl.Http.Client

/-!
The program: a command line, the settings file that it points to and the environment lead to an exit
code and to texts on the output streams.
-/
namespace FleetControl

def Settings.ofFile (path : String) : FileState → Except ProgramError Settings
  | .absent => .ok usual
  | .unreadable => .error (.other s!"unable to read config file '{path}'")
  | .text content => match ofYaml? content with
    | some s => .ok s
    | none => .error (.other s!"unable to parse config from file '{path}'")

structure Surroundings where
  home : String
  files : String → FileState
  environment : Settings.Environment
  noLog : Option String
  input : Option String
  screen : Progress.Screen
  network : Http.Network
  clock : Progress.TimeOfDay

namespace CommandLine.Flags

def usualSettingsPath (home : String) : String := home ++ "/upctl/upctl.yaml"

def settingsPath (f : Flags) (home : String) : String := f.config.getD (usualSettingsPath home)

def wantsLog (f : Flags) : Bool := f.logLevel ≠ .off

end CommandLine.Flags

namespace Surroundings

def logPathIn (home : String) : String := home ++ "/upctl/upctl.log"

def logPath (w : Surroundings) : String := logPathIn w.home

def ofTree (tree : FileTree) (home : String) (environment : Settings.Environment)
    (input : Option String) (screen : Progress.Screen) (network : Http.Network)
    (clock : Progress.TimeOfDay) : Surroundings :=
  ⟨home, tree.state, environment, tree.obstacle? (logPathIn home), input, screen, network, clock⟩

def settings (w : Surroundings) (f : CommandLine.Flags) : Except ProgramError Settings := do
  let path := f.settingsPath w.home
  let s ← Settings.ofFile path (w.files path)
  pure (f.settings (s.withEnvironment w.environment))

end Surroundings

def Settings.client (s : Settings) : Except ProgramError Http.Client := do
  let credentials ← s.credentials.mapError .rejected
  let base ← s.apiBase.mapError fun e => .other e.message
  pure ⟨base, credentials⟩

namespace Program

open CommandLine

def version : String := "upctl 0.1.0"

def usageLine : String := "Usage: upctl [OPTIONS] <COMMAND>"

def usageText : Usage → String
  | .help | .helpInPlaceOfCommand => usageLine
  | .version => version
  | .missingCommand => "a command is missing"
  | .unknownCommand => "unknown command"
  | .unknownFlag => "unknown flag"
  | .repeatedFlag => "a flag is given twice"
  | .needlessValue => "a flag takes no value"
  | .unsuitableValue => "a flag has no suitable value"
  | .malformedValue => "the value of a flag is malformed"

structure Run where
  result : Except ProgramError Unit
  printed : Printed

def prepare (w : Surroundings) (f : Flags) : Except ProgramError (Settings × Http.Client) := do
  let s ← w.settings f
  pure (s, ← s.client)

def carryOut (w : Surroundings) (i : Invocation) : Option Run :=
  match prepare w i.flags with
  | .error e => some ⟨.error e, .nothing⟩
  | .ok (s, client) =>
    let options := i.flags.batchOptions s none
    (i.dispatch (client.cloud w.network) options (.ofLine w.input) w.clock).map fun d =>
      let (_, written) := (Progress.Log.empty w.screen).replay d.steps
      ⟨d.result, d.printed.out, d.err (String.join (written.map (·.2)))⟩

structure Ending where
  exitCode : Nat
  printed : Printed
  logged : Bool
deriving DecidableEq, Repr

def Ending.ofUsage (u : Usage) : Ending :=
  let text := Report.line (usageText u)
  ⟨u.exitCode, if u.exitCode = 0 then ⟨text, ""⟩ else ⟨"", text⟩, false⟩

def errorLine : Except ProgramError Unit → String
  | .ok () => ""
  | .error e => Report.line s!"Error: {e.message}"

def exitCode : Except ProgramError Unit → Nat
  | .ok () => 0
  | .error e => e.exitCode

def logWarning (w : Surroundings) (reason : String) : String :=
  Report.line s!"Warning: cannot open log file {w.logPath}: {reason}"

def settingsPath (home : String) (args : List String) : String :=
  match parse args with
  | .ok i => i.flags.settingsPath home
  | .error _ => Flags.usualSettingsPath home

def wantsLog (args : List String) : Bool :=
  match parse args with
  | .ok i => i.flags.wantsLog
  | .error _ => false

def run (w : Surroundings) (args : List String) : Option Ending :=
  match parse args with
  | .error u => some (.ofUsage u)
  | .ok i =>
    let warning := if i.flags.wantsLog then (w.noLog.map (logWarning w)).getD "" else ""
    (carryOut w i).map fun r =>
      ⟨exitCode r.result, ⟨r.printed.out, warning ++ r.printed.err ++ errorLine r.result⟩,
        i.flags.wantsLog && w.noLog.isNone⟩

end Program
end FleetControl
