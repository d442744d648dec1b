import FleetControl.Program

namespace FleetControl

def configHome : IO String := do
  match ← IO.getEnv "XDG_CONFIG_HOME" with
  | some dir => if dir.startsWith "/" then return dir
  | none => pure ()
  return (← IO.getEnv "HOME").getD "" ++ "/.config"

def readState (path : String) : IO FileState := do
  try
    match String.fromUTF8? (← IO.FS.readBinFile path) with
    | some content => return .text content
    | none => return .unreadable
  catch
    | .noFileOrDirectory .. => return .absent
    | _ => return .unreadable

def beginLog (dir : String) : IO (Option String) := do
  try
    IO.FS.createDirAll dir
    IO.FS.withFile (dir ++ "/upctl.log") .append fun _ => pure ()
    return none
  catch e => return some (toString e)

def readEnvironment : IO Settings.Environment := do
  let found ← Settings.Environment.names.mapM fun name => return (name, ← IO.getEnv name)
  return .ofVariables fun name => (found.lookup name).join

end FleetControl

open FleetControl in
def main (args : List String) : IO UInt32 := do
  let home ← configHome
  let state ← readState (Program.settingsPath home args)
  let noLog ← if Program.wantsLog args then beginLog (home ++ "/upctl") else pure none
  let some ending := Program.run
    { home, files := fun _ => state, environment := ← readEnvironment, noLog, input := some "",
      screen := .stream, network := Http.Network.down, clock := ⟨0⟩ } args
    | throw (IO.userError "the run has no end")
  (← IO.getStdout).putStr ending.printed.out
  (← IO.getStderr).putStr ending.printed.err
  return ending.exitCode.toUInt32
