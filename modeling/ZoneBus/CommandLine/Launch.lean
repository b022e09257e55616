import ZoneBus.CommandLine.Options
import ZoneBus.Settings.File

/-!
# What a command line leads to

The options and the environment name the file of the settings.  What the file holds,
changed as the options say, is then either written back or used to open a session.

## Main definitions

* `Settings.overridden` — settings changed as options say.
* `Launch`, `Launch.ofArguments` — what is to be done before any file is looked at.
* `Decision`, `Launch.decide` — what is to be done once the file is known.
* `LaunchError` — why nothing can be done.
* `ExitCode`, `Conclusion`, `Launch.conclude` — how the program ends.
-/

namespace ZoneBus

/-- Settings changed as options say.  A host or a device also chooses how the bus is
reached. -/
def Settings.overridden (s : Settings) (o : Options) : Settings :=
  let link := s.connection
  let link := match o.host with
    | some host => { link with transport := .tcp, host := host }
    | none => link
  let link := match o.port with
    | some port => { link with port := port }
    | none => link
  let link := match o.serial with
    | some device => { link with transport := .serial, serialPort := device }
    | none => link
  let link := match o.baud with
    | some speed => { link with baudRate := speed }
    | none => link
  let client := match o.logLevel with
    | some level => { s.client with logLevel := level }
    | none => s.client
  { s with connection := link, client := client }

/-- Why nothing can be done. -/
inductive LaunchError where
  /-- There is no place for the settings. -/
  | locating (cause : SettingsError)
  /-- The settings at a place cannot be loaded. -/
  | loading (path : String) (cause : SettingsError)
  /-- The settings cannot be saved at a place. -/
  | saving (path : String) (cause : SettingsError)
  /-- The session cannot be started. -/
  | starting (cause : SessionError)
deriving DecidableEq

/-- The text of an error: what was tried, then why it failed. -/
def LaunchError.message : LaunchError → String
  | locating cause => "Error: locating config file\n\nCaused by:\n    " ++ cause.message
  | loading path cause => s!"Error: loading {path}\n\nCaused by:\n    {cause.message}"
  | saving path cause => s!"Error: saving {path}\n\nCaused by:\n    {cause.message}"
  | starting cause => "Error: starting session\n\nCaused by:\n    " ++ cause.message

/-- The ways the program ends. -/
inductive ExitCode where
  /-- Everything was done. -/
  | success
  /-- Something failed. -/
  | failure
  /-- The command line says nothing. -/
  | usage
deriving DecidableEq, Repr

/-- The number that the system gets. -/
def ExitCode.number : ExitCode → Nat
  | success => 0
  | failure => 1
  | usage => 2

/-- The name and the version of the program. -/
def versionLine : String := "rnet-client 0.1.0"

/-- What help adds about the value of an option that is not given. -/
def Environment.noteOn (e : Environment) : Flag → String
  | .config => " [env: RNET_CONFIG=" ++ e.settingsFile.getD "" ++ "]"
  | .controller => " [default: 0]"
  | _ => ""

/-- The lines that help shows in an environment. -/
def helpText (e : Environment) : String :=
  let width := (Flag.all.map fun f => f.display.length).foldl max 0
  let gap (f : Flag) : String :=
    String.ofList (List.replicate (width + 2 - f.display.length) ' ')
  let lead (f : Flag) : String :=
    match f.letter? with
    | some c => "  -" ++ c.toString ++ ", "
    | none => "      "
  let line (f : Flag) : String := lead f ++ f.display ++ gap f ++ f.about ++ e.noteOn f
  String.intercalate "\n"
    (["Russound RNET bus client", "", "Usage: rnet-client [OPTIONS]", "", "Options:"] ++
      Flag.all.map line)

/-- What is to be done before any file is looked at. -/
inductive Launch where
  /-- A text is shown, and that is all. -/
  | show (text : String)
  /-- The command line says nothing. -/
  | refuse (error : UsageError)
  /-- Nothing can be done. -/
  | fail (error : LaunchError)
  /-- The settings at a place are needed. -/
  | go (path : String) (options : Options)

/-- What a command line leads to in an environment. -/
def Launch.ofArguments (e : Environment) (arguments : List String) : Launch :=
  match Options.ofArguments arguments with
  | .error .help => .show (helpText e)
  | .error .version => .show versionLine
  | .error (.refused error) => .refuse error
  | .ok options =>
    match if options.config.isSome then options.config else e.settingsFile with
    | some path => if path.isEmpty then .refuse (.missingValue .config) else .go path options
    | none =>
      match settingsPath? e with
      | some path => .go path options
      | none => .fail (.locating .noPlace)

/-- What is to be done once the file of the settings is known. -/
inductive Decision where
  /-- Nothing can be done. -/
  | fail (error : LaunchError)
  /-- The file is to hold these bytes. -/
  | write (bytes : Bytes)
  /-- A session is to be opened, and paths are to be read from a controller. -/
  | connect (settings : Settings) (controller : Address) (reads : List Path)

/-- What options lead to, when the file at a place is the given one. -/
def decideLaunch (path : String) (o : Options) (file : File) : Decision :=
  match Settings.load file with
  | .error e => .fail (.loading path e)
  | .ok settings =>
    let settings := settings.overridden o
    if o.saveConfig then
      match settings.save file with
      | .error e => .fail (.saving path e)
      | .ok bytes => .write bytes
    else .connect settings (.controllerAt (o.controller.getD 0)) o.reads

/-- How the program ends. -/
structure Conclusion where
  /-- The way it ends. -/
  exit : ExitCode
  /-- What it shows. -/
  output : String
  /-- What it complains about. -/
  complaint : String
  /-- What is found at the place of the settings then. -/
  file : File

/-- The program ends because of an error. -/
def Conclusion.failing (file : File) (e : LaunchError) : Conclusion :=
  ⟨.failure, "", e.message, file⟩

/-- How the program ends, when the file of the settings is the given one, and when a
link that is to be opened fails in the given way. -/
def Launch.conclude (l : Launch) (file : File) (openFailure : Settings → LinkError) : Conclusion :=
  match l with
  | .show text => ⟨.success, text, "", file⟩
  | .refuse error => ⟨.usage, "", error.message, file⟩
  | .fail error => .failing file error
  | .go path options =>
    match decideLaunch path options file with
    | .fail error => .failing file error
    | .write bytes => ⟨.success, "", "", .holding bytes⟩
    | .connect settings _ _ => .failing file (.starting (.connection (openFailure settings)))

end ZoneBus
