import ZoneBus.Path.Text
import ZoneBus.Text.Terminal

/-!
# Options on the command line

Options have long names, some with a value that follows after an equals sign or as
the next argument; an argument that looks like an option is never taken as a value.
Nothing else may stand on the command line.  Arguments are looked at in order, and a
value that is an argument of its own is looked at when its option is over, so the
first thing that is wrong decides.

## Main definitions

* `Flag` — the options by name.
* `Options` — what the options say.
* `UsageError`, `Stop` — why there is nothing to say, or nothing to do.
* `Scan`, `Scan.step` — reading the arguments one by one.
* `Options.ofArguments` — what a command line says.
-/

namespace ZoneBus

/-- An option. -/
inductive Flag where
  /-- The file of the settings. -/
  | config
  /-- The host on the network. -/
  | host
  /-- The port of the host. -/
  | port
  /-- The serial device. -/
  | serial
  /-- The speed of the serial line. -/
  | baud
  /-- How much is written to the log. -/
  | logLevel
  /-- The controller that is read. -/
  | controller
  /-- A path that is read; it may be given several times. -/
  | read
  /-- The settings are written back. -/
  | saveConfig
  /-- Help is shown. -/
  | help
  /-- The version is shown. -/
  | version
deriving DecidableEq, Repr

namespace Flag

/-- All options in the order in which they are listed. -/
def all : List Flag :=
  [config, host, port, serial, baud, logLevel, controller, read, saveConfig, help, version]

/-- The long name. -/
def name : Flag → String
  | config => "config"
  | host => "host"
  | port => "port"
  | serial => "serial"
  | baud => "baud"
  | logLevel => "log-level"
  | controller => "controller"
  | read => "read"
  | saveConfig => "save-config"
  | help => "help"
  | version => "version"

/-- The name of the value, if one belongs to the option. -/
def valueName? : Flag → Option String
  | config => some "CONFIG"
  | host => some "HOST"
  | port => some "PORT"
  | serial => some "SERIAL"
  | baud => some "BAUD"
  | logLevel => some "LOG_LEVEL"
  | controller => some "CONTROLLER"
  | read => some "READS"
  | saveConfig => none
  | help => none
  | version => none

/-- What the option is for. -/
def about : Flag → String
  | config => "Config file; defaults to the platform config directory"
  | host => "TCP host of the controller or serial bridge"
  | port => "TCP port of the controller or serial bridge"
  | serial => "Serial device, e.g. /dev/ttyUSB0 or COM3"
  | baud => "Serial line speed"
  | logLevel => "Log level used when RUST_LOG is unset"
  | controller => "Controller addressed by --read"
  | read => "Path to read once connected, dotted (e.g. 2.0.0.7).  Repeatable"
  | saveConfig => "Write the effective configuration back to the config file and exit"
  | help => "Print help"
  | version => "Print version"

/-- The option with a long name. -/
def ofName? (name : String) : Option Flag := all.find? fun f => f.name == name

/-- The short name, if the option has one. -/
def letter? : Flag → Option Char
  | help => some 'h'
  | version => some 'V'
  | _ => none

/-- The option with a short name. -/
def ofLetter? (c : Char) : Option Flag := all.find? fun f => f.letter? == some c

/-- The option with its value, as messages show it. -/
def display (f : Flag) : String :=
  match f.valueName? with
  | some value => s!"--{f.name} <{value}>"
  | none => s!"--{f.name}"

end Flag

/-! ### Values -/

/-- Why a value does not suit its option. -/
inductive ValueFault where
  /-- It is no number. -/
  | numeral (cause : NumeralError)
  /-- It is a number above this bound, or below zero. -/
  | outOfRange (value : Int) (most : Nat)
  /-- It is no path. -/
  | path (cause : PathTextError)
deriving DecidableEq

/-- The text of a fault. -/
def ValueFault.message : ValueFault → String
  | numeral cause => cause.message
  | outOfRange value most => s!"{value} is not in 0..={most}"
  | path cause => cause.message

/-- A number from zero up to a bound. -/
def boundedNumber (most : Nat) (text : String) : Except ValueFault Nat :=
  match Numeral.integer text.toList with
  | .error e => .error (.numeral e)
  | .ok n => if 0 ≤ n ∧ n ≤ most then .ok n.toNat else .error (.outOfRange n most)

/-! ### What is said -/

/-- What the options say. -/
structure Options where
  /-- The file of the settings. -/
  config : Option String := none
  /-- The host on the network. -/
  host : Option String := none
  /-- The port of the host. -/
  port : Option UInt16 := none
  /-- The serial device. -/
  serial : Option String := none
  /-- The speed of the serial line. -/
  baud : Option UInt32 := none
  /-- How much is written to the log. -/
  logLevel : Option String := none
  /-- The controller that is read. -/
  controller : Option UInt8 := none
  /-- The paths that are read, in order. -/
  reads : List Path := []
  /-- Whether the settings are written back. -/
  saveConfig : Bool := false
deriving DecidableEq

/-- Why a command line says nothing. -/
inductive UsageError where
  /-- The value of an option does not suit it. -/
  | invalidValue (flag : Flag) (value : String) (fault : ValueFault)
  /-- An option has no value. -/
  | missingValue (flag : Flag)
  /-- An option has a value that does not belong to it. -/
  | surplusValue (flag : Flag) (value : String)
  /-- An option is given again. -/
  | repeated (flag : Flag)
  /-- Two options exclude each other. -/
  | conflict (flag other : Flag)
  /-- An argument is no option. -/
  | unexpected (argument : String)
deriving DecidableEq

/-- An argument as an error shows it. -/
def shownArgument (argument : String) : String := String.ofList (Terminal.shown argument.toList)

/-- The text of an error. -/
def UsageError.message : UsageError → String
  | invalidValue flag value fault =>
    s!"error: invalid value '{shownArgument value}' for '{flag.display}': {fault.message}"
  | missingValue flag =>
    s!"error: a value is required for '{flag.display}' but none was supplied"
  | surplusValue flag value =>
    s!"error: unexpected value '{shownArgument value}' for '{flag.display}' found; " ++
      "no more were expected"
  | repeated flag => s!"error: the argument '{flag.display}' cannot be used multiple times"
  | conflict flag other =>
    s!"error: the argument '{flag.display}' cannot be used with '{other.display}'"
  | unexpected argument => s!"error: unexpected argument '{shownArgument argument}' found"

/-- Why reading the command line ends before its end. -/
inductive Stop where
  /-- Help is to be shown. -/
  | help
  /-- The version is to be shown. -/
  | version
  /-- Something is wrong. -/
  | refused (error : UsageError)
deriving DecidableEq

/-- An option that may be given once. -/
def once {α : Type} (flag : Flag) (old : Option α) (value : Except UsageError α) :
    Except UsageError (Option α) :=
  if old.isSome then .error (.repeated flag) else value.map some

/-- A value that has to be a number. -/
def numberFor (flag : Flag) (most : Nat) (text : String) : Except UsageError Nat :=
  match boundedNumber most text with
  | .ok n => .ok n
  | .error e => .error (.invalidValue flag text e)

/-- A value that has to be a path. -/
def pathFor (flag : Flag) (text : String) : Except UsageError Path :=
  match Path.ofText text.toList with
  | .ok p => .ok p
  | .error e => .error (.invalidValue flag text (.path e))

/-- A value that must not be empty. -/
def nonEmptyFor (flag : Flag) (text : String) : Except UsageError String :=
  if text.isEmpty then .error (.missingValue flag) else .ok text

namespace Options

/-- Takes an option with its value. -/
def setValue (o : Options) (flag : Flag) (text : String) : Except UsageError Options :=
  match flag with
  | .config => return { o with config := ← once flag o.config (nonEmptyFor flag text) }
  | .host => return { o with host := ← once flag o.host (.ok text) }
  | .port =>
    return { o with port := ← once flag o.port ((numberFor flag 65535 text).map UInt16.ofNat) }
  | .serial => return { o with serial := ← once flag o.serial (.ok text) }
  | .baud =>
    return { o with
      baud := ← once flag o.baud ((numberFor flag 4294967295 text).map UInt32.ofNat) }
  | .logLevel => return { o with logLevel := ← once flag o.logLevel (.ok text) }
  | .controller =>
    return { o with
      controller := ← once flag o.controller ((numberFor flag 255 text).map UInt8.ofNat) }
  | .read => return { o with reads := o.reads ++ [← pathFor flag text] }
  | .saveConfig => .error (.surplusValue flag text)
  | .help => .error (.surplusValue flag text)
  | .version => .error (.surplusValue flag text)

/-- Takes an option without a value. -/
def setFlag (o : Options) : Flag → Except Stop Options
  | .help => .error .help
  | .version => .error .version
  | .saveConfig =>
    if o.saveConfig then .error (.refused (.repeated .saveConfig))
    else .ok { o with saveConfig := true }
  | flag => .error (.refused (.missingValue flag))

end Options

/-! ### Reading the arguments -/

/-- An option whose value is an argument of its own. -/
inductive Waiting where
  /-- There is none. -/
  | nothing
  /-- The value has not come. -/
  | value (flag : Flag)
  /-- The value has come and was not looked at. -/
  | done (flag : Flag) (text : String)
deriving DecidableEq

/-- How far the arguments have been read. -/
structure Scan where
  /-- What was said so far. -/
  options : Options
  /-- The option that waits for its value, or for a look at it. -/
  waiting : Waiting
  /-- Whether no option may follow. -/
  ended : Bool

namespace Scan

/-- Before the first argument. -/
def fresh : Scan := ⟨{}, .nothing, false⟩

/-- An error as a reason to stop. -/
def refuse {α : Type} : Except UsageError α → Except Stop α
  | .ok a => .ok a
  | .error e => .error (.refused e)

/-- Looks at the value that waits. -/
def settle (s : Scan) : Except Stop Options :=
  match s.waiting with
  | .nothing => .ok s.options
  | .value flag => .error (.refused (.missingValue flag))
  | .done flag text => refuse (s.options.setValue flag text)

/-- An option without a value. -/
def takeFlag (s : Scan) (flag : Flag) : Except Stop Scan := do
  let o ← s.settle
  return { s with options := ← o.setFlag flag, waiting := .nothing }

/-- A name and the text after the first equals sign. -/
def splitName : List Char → List Char × Option (List Char)
  | [] => ([], none)
  | c :: rest =>
    if c = '=' then ([], some rest)
    else
      let (name, value) := splitName rest
      (c :: name, value)

/-- An argument that begins with two hyphens; what follows them is given. -/
def takeLong (s : Scan) (argument : String) (body : List Char) : Except Stop Scan := do
  let (name, value) := splitName body
  match Flag.ofName? (String.ofList name), value with
  | none, _ => .error (.refused (.unexpected argument))
  | some flag, value =>
    match flag.valueName?, value with
    | none, none => s.takeFlag flag
    | none, some text => .error (.refused (.surplusValue flag (String.ofList text)))
    | some _, none =>
      return { s with options := ← s.settle, waiting := .value flag }
    | some _, some text =>
      let o ← s.settle
      return { s with
        options := ← refuse (o.setValue flag (String.ofList text)), waiting := .nothing }

/-- Takes one more argument. -/
def step (s : Scan) (argument : String) : Except Stop Scan :=
  if s.ended then .error (.refused (.unexpected argument))
  else
    match argument.toList with
    | ['-', '-'] => .ok { s with ended := true }
    | '-' :: '-' :: body => s.takeLong argument body
    | '-' :: c :: _ =>
      match Flag.ofLetter? c with
      | some flag => s.takeFlag flag
      | none => .error (.refused (.unexpected argument))
    | _ =>
      match s.waiting with
      | .value flag => .ok { s with waiting := .done flag argument }
      | _ => .error (.refused (.unexpected argument))

/-- What was said, once there are no more arguments. -/
def finish (s : Scan) : Except Stop Options := do
  let o ← s.settle
  if o.host.isSome && o.serial.isSome then .error (.refused (.conflict .host .serial))
  else return o

end Scan

/-- What a command line says. -/
def Options.ofArguments (arguments : List String) : Except Stop Options := do
  (← arguments.foldlM Scan.step Scan.fresh).finish

end ZoneBus
