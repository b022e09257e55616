import ZoneBus.Settings.Reading
import ZoneBus.Settings.Writing

/-!
# The file of the settings

Where the file lies, what loading makes of what is found there, and what saving
leaves there.  A file that does not exist gives the default settings; saving makes
the directories on the way to it.

## Main definitions

* `joinPath`, `directoryOf?`, `settingsPath?` — the place of the file.
* `File`, `File.unstored` — what is found at the place.
* `Settings.load`, `Settings.save` — reading the file and writing it.
* `SettingsError` — why that fails.
-/

namespace ZoneBus

/-! ### The place -/

/-- A name below a directory.  The empty path is the directory that one is in, and a
path from the root stands for itself. -/
def joinPath (directory name : String) : String :=
  if name.startsWith "/" || directory.isEmpty then name
  else if directory.endsWith "/" then directory ++ name
  else directory ++ "/" ++ name

/-- The directory that a path lies in; nothing when it is the one that one is in. -/
def directoryOf? (path : String) : Option String :=
  let above := path.toList.reverse.dropWhile (· != '/')
  let directory := above.dropWhile (· == '/')
  if directory.isEmpty then if above.isEmpty then none else some "/"
  else some (String.ofList directory.reverse)

/-- The variables of the environment that matter. -/
structure Environment where
  /-- The file of the settings. -/
  settingsFile : Option String := none
  /-- Where the user keeps settings. -/
  configHome : Option String := none
  /-- The directory of the user. -/
  home : Option String := none

/-- Where the settings lie unless something else is said: in the directory for the
settings of the user, or else in its usual place in the user's own directory. -/
def settingsPath? (e : Environment) : Option String :=
  let base :=
    match e.configHome with
    | some directory => some directory
    | none => e.home.map fun home => joinPath home ".config"
  base.map fun base => joinPath (joinPath base "rnet-bridge") "client.toml"

/-! ### Loading and saving -/

/-- What is found at a place. -/
inductive File where
  /-- Nothing. -/
  | missing
  /-- A file with these bytes. -/
  | holding (bytes : Bytes)
  /-- A directory. -/
  | directory
  /-- Nothing, and nothing can be there, since a file stands in the way. -/
  | blocked
deriving DecidableEq

/-- What is found at a path where nothing was stored.  A path whose last part is
empty or made of one or two dots can only be that of a directory. -/
def File.unstored (path : String) : File :=
  let last := path.toList.reverse.takeWhile (· != '/')
  if last = [] ∨ last = ['.'] ∨ last = ['.', '.'] then .directory else .missing

/-- Why a file cannot be read or written. -/
inductive FileFault where
  /-- It is a directory. -/
  | isADirectory
  /-- Something on the way to it is no directory. -/
  | notADirectory
  /-- Its bytes are no text. -/
  | invalidData
deriving DecidableEq

/-- The name of a fault. -/
def FileFault.name : FileFault → String
  | isADirectory => "IsADirectory"
  | notADirectory => "NotADirectory"
  | invalidData => "InvalidData"

/-- Why settings cannot be loaded or saved. -/
inductive SettingsError where
  /-- There is no place for them. -/
  | noPlace
  /-- The file cannot be read or written. -/
  | file (fault : FileFault)
  /-- The file holds something else than settings. -/
  | parse
  /-- A number is too large to be written. -/
  | serialize
deriving DecidableEq

/-- The text of an error. -/
def SettingsError.message : SettingsError → String
  | noPlace => "no config directory for this platform; pass --config"
  | file fault => "config file: " ++ fault.name
  | parse => "invalid config"
  | serialize => "could not render config"

/-- The text that some bytes are, if they are one. -/
def textOfBytes? (bs : Bytes) : Option (List Char) :=
  (String.fromUTF8? ⟨bs.toArray⟩).map String.toList

/-- The bytes of a text. -/
def bytesOfText (cs : List Char) : Bytes := (String.ofList cs).toUTF8.data.toList

namespace Settings

/-- The settings in what is found at their place. -/
def load : File → Except SettingsError Settings
  | .missing => .ok {}
  | .directory => .error (.file .isADirectory)
  | .blocked => .error (.file .notADirectory)
  | .holding bytes =>
    match textOfBytes? bytes with
    | none => .error (.file .invalidData)
    | some text =>
      match ofText? text with
      | none => .error .parse
      | some s => .ok s

/-- The bytes that saving leaves at the place.  The directories are made first, then
the text, and the file is written last. -/
def save (s : Settings) (file : File) : Except SettingsError Bytes :=
  if file = .blocked then .error (.file .notADirectory)
  else
    match s.toText? with
    | none => .error .serialize
    | some text =>
      if file = .directory then .error (.file .isADirectory) else .ok (bytesOfText text)

end Settings

end ZoneBus
