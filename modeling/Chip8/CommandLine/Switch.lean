/-!
# Switches

The switches of the command line. A flag stands alone, a parameter takes a value. Every switch has
one or more spellings (`Switch.table`), and the order of the table is the order in which messages
list them.
-/

namespace Chip8.CommandLine

/-- A switch that stands alone. -/
inductive Flag
  | help
  | screen
  | verbose
  | version
deriving DecidableEq, Repr

/-- A switch that takes a value. -/
inductive Parameter
  | steps
  | seed
  | press
  | logDir
deriving DecidableEq, Repr

/-- A switch. -/
inductive Switch
  | flag (f : Flag)
  | parameter (p : Parameter)
deriving DecidableEq, Repr

namespace Switch

/-- Every spelling with its switch. -/
def table : List (String × Switch) :=
  [("-h", flag .help), ("--help", flag .help),
   ("--steps", parameter .steps),
   ("--seed", parameter .seed),
   ("--press", parameter .press),
   ("--screen", flag .screen),
   ("--verbose", flag .verbose), ("-v", flag .verbose),
   ("--log-dir", parameter .logDir),
   ("--version", flag .version)]

/-- The spellings of a switch. -/
def spellings (s : Switch) : List String := (table.filter fun row => row.2 = s).map Prod.fst

/-- The name of a switch in messages: all its spellings. -/
def name (s : Switch) : String := "/".intercalate s.spellings

/-- The switch with a spelling. -/
def spelled? (text : String) : Option Switch := (table.find? fun row => row.1 = text).map Prod.snd

/-- The rows whose spelling starts with a text. -/
def completions (text : String) : List (String × Switch) :=
  table.filter fun row => text.toList.isPrefixOf row.1.toList

end Switch

/-- The flag that a letter after a single dash stands for. -/
def Flag.ofLetter? (c : Char) : Option Flag :=
  match Switch.spelled? (String.ofList ['-', c]) with
  | some (.flag f) => some f
  | _ => none

end Chip8.CommandLine
