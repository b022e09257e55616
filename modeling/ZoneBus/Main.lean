import ZoneBus.CommandLine.Launch

/-!
# The program

Reads the command line and the environment, looks at the file of the settings, and
does what they lead to.  There is no driver for links here, so every link that is to
be opened fails.
-/

namespace ZoneBus

/-- What is found at a path. -/
def fileAt (path : String) : IO File := do
  try
    return .holding (← IO.FS.readBinFile path).data.toList
  catch
    | .noFileOrDirectory .. => return .missing
    | _ => return .directory

/-- The failure of a link that no driver can open. -/
def withoutDriver (s : Settings) : LinkError :=
  .openFailed s.connection.endpoint "no driver for this kind of link"

/-- The environment that the program runs in. -/
def environment : IO Environment := do
  return { settingsFile := ← IO.getEnv "RNET_CONFIG"
           configHome := ← IO.getEnv "XDG_CONFIG_HOME"
           home := ← IO.getEnv "HOME" }

/-- Writes what a path is to hold, with the directories on the way to it. -/
def store (path : String) (bytes : Bytes) : IO Unit := do
  match directoryOf? path with
  | some directory => IO.FS.createDirAll directory
  | none => pure ()
  IO.FS.writeBinFile path ⟨bytes.toArray⟩

/-- Runs the program. -/
def runProgram (arguments : List String) : IO UInt32 := do
  let launch := Launch.ofArguments (← environment) arguments
  let (path, file) ← match launch with
    | .go path _ => do pure (path, ← fileAt path)
    | _ => pure ("", .missing)
  let c := launch.conclude file withoutDriver
  if !c.output.isEmpty then IO.println c.output
  if !c.complaint.isEmpty then IO.eprintln c.complaint
  match c.file with
  | .holding bytes => if c.file ≠ file then store path bytes
  | _ => pure ()
  return UInt32.ofNat c.exit.number

end ZoneBus

/-- The program. -/
def main (arguments : List String) : IO UInt32 := ZoneBus.runProgram arguments
