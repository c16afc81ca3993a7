import Chip8.CommandLine.Argument

/-!
# Invocations

A command line names one program image and changes the settings of its run. It is read from left to
right (`Draft.read`): each switch acts when it is met, the first word is the image, and whatever has
no place is kept as an extra. A switch that asks for something else than a run, or a misuse, ends the
reading.

A missing image is reported before the extras.

A parameter that was left blank is no misuse: the run is asked for all the same, and breaks off when
it needs the value.
-/

namespace Chip8.CommandLine

/-- How a run goes. The parameters in `blank` were left without a value. -/
structure Settings where
  steps : Int := 1000
  seed : Option Int := none
  pressed : List Nibble := []
  screen : Bool := false
  verbose : Bool := false
  logDir : Option String := none
  blank : List Parameter := []
deriving DecidableEq, Repr

/-- A run that is asked for. -/
structure Invocation where
  rom : String
  settings : Settings
deriving DecidableEq, Repr

/-- What takes the place of a run. -/
inductive EarlyExit
  | help
  | version
  | misuse (error : UsageError)
deriving DecidableEq, Repr

/-! ## Switches act -/

namespace Settings

/-- A flag acts. -/
def raise (s : Settings) : Flag → Except EarlyExit Settings
  | .help => .error .help
  | .version => .error .version
  | .screen => .ok { s with screen := true }
  | .verbose => .ok { s with verbose := true }

/-- Several flags act. -/
def raiseAll (s : Settings) : List Flag → Except EarlyExit Settings
  | [] => .ok s
  | f :: fs => do
    let raised ← s.raise f
    raised.raiseAll fs

/-- The integer that is the value of a parameter. -/
def integer (p : Parameter) (value : String) : Except EarlyExit Int :=
  match Text.IntLiteral.parse? 10 value with
  | some n => .ok n
  | none => .error (.misuse (.notInteger p value))

/-- A parameter is no longer blank. -/
def fill (s : Settings) (p : Parameter) : Settings := { s with blank := s.blank.filter (· ≠ p) }

/-- A parameter takes a value. The last value counts, but every key that is named is pressed, and a key
that was left blank stays so. -/
def assign (s : Settings) (p : Parameter) (value : String) : Except EarlyExit Settings :=
  match p with
  | .steps => (integer p value).map fun n => { s.fill p with steps := n }
  | .seed => (integer p value).map fun n => { s.fill p with seed := some n }
  | .press =>
    match Keypad.parse value with
    | .ok key => .ok { s with pressed := s.pressed ++ [key] }
    | .error error => .error (.misuse (.badKey error))
  | .logDir => .ok { s with logDir := some value }

/-- A parameter is left without a value. A blank log directory is none. -/
def leaveBlank (s : Settings) (p : Parameter) : Settings :=
  match p with
  | .logDir => { s with logDir := none }
  | p => { s with blank := p :: s.blank }

end Settings

/-! ## Reading -/

/-- What has been read so far. -/
structure Draft where
  rom : Option String := none
  settings : Settings := {}
  extras : List String := []
deriving DecidableEq, Repr

namespace Draft

/-- Takes a word: as the image if there is none yet. -/
def take (d : Draft) (text : String) : Draft :=
  match d.rom with
  | none => { d with rom := some text }
  | some _ => { d with extras := d.extras ++ [text] }

/-- Puts a text aside. -/
def putAside (d : Draft) (text : String) : Draft := { d with extras := d.extras ++ [text] }

/-- Goes on with other settings. -/
def withSettings (d : Draft) (s : Settings) : Draft := { d with settings := s }

/-- Reads arguments from left to right. A double dash next to the image belongs to it; any other is
put aside. -/
def read (d : Draft) : List Argument → Except EarlyExit Draft
  | [] => .ok d
  | .word text :: .separator :: rest =>
    match d.rom with
    | none => (d.take text).read rest
    | some _ => ((d.take text).putAside "--").read rest
  | .word text :: rest => (d.take text).read rest
  | .separator :: .word text :: rest =>
    match d.rom with
    | none => (d.take text).read rest
    | some _ => ((d.putAside "--").take text).read rest
  | .separator :: rest => (d.putAside "--").read rest
  | .unknown text :: rest => (d.putAside text).read rest
  | .switch (.flag f) :: rest => do
    let settings ← d.settings.raise f
    (d.withSettings settings).read rest
  | .switch (.parameter p) :: .word value :: rest => do
    let settings ← d.settings.assign p value
    (d.withSettings settings).read rest
  | .switch (.parameter p) :: _ => .error (.misuse (.valueMissing p))
  | .assigned (.flag f) value :: _ => .error (.misuse (.valueIgnored f value))
  | .assigned (.parameter p) value :: rest => do
    let settings ← d.settings.assign p value
    (d.withSettings settings).read rest
  | .blank p :: rest => (d.withSettings (d.settings.leaveBlank p)).read rest
  | .cluster f tail :: rest =>
    match Argument.flags f tail with
    | .error error => .error (.misuse error)
    | .ok fs => do
      let settings ← d.settings.raiseAll fs
      (d.withSettings settings).read rest

/-- The run that was read. -/
def finish (d : Draft) : Except EarlyExit Invocation :=
  match d.rom with
  | none => .error (.misuse .romMissing)
  | some rom =>
    if d.extras = [] then .ok ⟨rom, d.settings⟩ else .error (.misuse (.unrecognized d.extras))

end Draft

/-- The run that a command line asks for, or what takes its place. An ambiguous switch is reported
before any switch acts. -/
def Invocation.parse (args : List String) : Except EarlyExit Invocation :=
  match Argument.ofTexts args with
  | .error error => .error (.misuse error)
  | .ok arguments => do
    let draft ← ({} : Draft).read arguments
    draft.finish

end Chip8.CommandLine
