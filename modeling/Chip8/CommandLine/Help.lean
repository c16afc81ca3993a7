import Chip8.CommandLine.Switch

/-!
# The help

The help is laid out from the table of switches. The usage shows each switch by its first spelling, as
many on a line as fit (`fill`); below it every switch has a row with all its spellings and, in a column
of its own, what it does.
-/

namespace Chip8.CommandLine

/-- The word that stands for the value of a parameter. -/
def Parameter.metavar : Parameter → String
  | .steps => "STEPS"
  | .seed => "SEED"
  | .press => "KEY"
  | .logDir => "LOG_DIR"

namespace Switch

/-- The switches, in the order of the table. -/
def all : List Switch := (table.map Prod.snd).eraseDups

theorem mem_all (s : Switch) : s ∈ all := by
  cases s with
  | flag f => cases f <;> decide
  | parameter p => cases p <;> decide

/-- A spelling, with the word for the value if the switch takes one. -/
def shown (s : Switch) (spelling : String) : String :=
  match s with
  | flag _ => spelling
  | parameter p => spelling ++ " " ++ p.metavar

/-- A switch in the usage. -/
def usage (s : Switch) : String := "[" ++ s.shown (s.spellings.headD "") ++ "]"

/-- A switch at the head of its row. -/
def heading (s : Switch) : String := ", ".intercalate (s.spellings.map s.shown)

/-- What a switch does. -/
def purpose : Switch → String
  | flag .help => "show this help message and exit"
  | parameter .steps => "Number of steps to run (default: 1000)"
  | parameter .seed => "Seed for the Cxkk random source"
  | parameter .press => "Hold hex key 0-F down for the whole run (repeatable)"
  | flag .screen => "Print the final screen as text"
  | flag .verbose => "Show INFO messages on the console"
  | parameter .logDir => "Write a full DEBUG trace log into this directory"
  | flag .version => "show program's version number and exit"

end Switch

namespace Help

/-- The longest line of the usage. -/
def lineWidth : Nat := 78

/-- A text with blanks after it, up to a width. -/
def padRight (width : Nat) (text : String) : String :=
  text ++ String.ofList (List.replicate (width - text.length) ' ')

/-- Adds words to a line, and goes on with a new line, which starts with a margin, where a word would
make the line too long. -/
def fill (margin line : String) : List String → List String
  | [] => [line]
  | word :: rest =>
    let longer := line ++ " " ++ word
    if longer.length ≤ lineWidth then fill margin longer rest
    else line :: fill margin (margin ++ " " ++ word) rest

/-- The usage: the switches, and then the image on a line of its own. -/
def usage : List String :=
  let start := "usage: chip8run"
  let margin := padRight start.length ""
  fill margin start (Switch.all.map Switch.usage) ++ [margin ++ " rom"]

/-- The width of the headings. -/
def headingWidth : Nat := (Switch.all.map fun s => s.heading.length).foldl max 0

/-- A row of the help. -/
def row (heading purpose : String) : String := "  " ++ padRight headingWidth heading ++ "  " ++ purpose

/-- The whole help. -/
def lines : List String :=
  usage ++
    ["", "Run a CHIP-8 ROM headless and report the final machine state", "",
      "positional arguments:", row "rom" "CHIP-8 program image (.ch8)", "", "options:"] ++
    Switch.all.map fun s => row s.heading s.purpose

/-- No switch is left out. -/
theorem row_mem_lines (s : Switch) : row s.heading s.purpose ∈ lines :=
  List.mem_append_right _ (List.mem_map_of_mem s.mem_all)

end Help

end Chip8.CommandLine
