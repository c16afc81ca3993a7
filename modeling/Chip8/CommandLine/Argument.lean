import Chip8.CommandLine.Switch
import Chip8.Keypad.Literal
import Chip8.Text.DecimalDigit

/-!
# Arguments

What each argument of the command line is taken for (`Argument.ofText`).

* A switch may be written with any beginning of a long spelling that no other spelling has.
* A value may follow a switch after an equals sign. A double dash there is no value: it is dropped,
  and the parameter is left blank.
* A single dash may hold several flags, one letter each. An equals sign after the first letter is
  skipped, and nothing but the letters of flags may follow (`Argument.flags`).
* What starts with a dash and is no switch is still a word if it is a negative number or holds a
  space.
* After a double dash everything is a word.
-/

namespace Chip8.CommandLine

/-! ## Misuse -/

/-- What is wrong with a command line. -/
inductive UsageError
  | ambiguous (text : String) (candidates : List String)
  | valueMissing (p : Parameter)
  | valueIgnored (f : Flag) (value : String)
  | notInteger (p : Parameter) (value : String)
  | badKey (error : KeyLiteralError)
  | romMissing
  | unrecognized (texts : List String)
deriving DecidableEq, Repr

/-- The text of a misuse. -/
def UsageError.message : UsageError → String
  | ambiguous text candidates =>
    "ambiguous option: " ++ text ++ " could match " ++ ", ".intercalate candidates
  | valueMissing p => "argument " ++ (Switch.parameter p).name ++ ": expected one argument"
  | valueIgnored f value =>
    "argument " ++ (Switch.flag f).name ++ ": ignored explicit argument " ++ Text.Quoted.quote value
  | notInteger p value =>
    "argument " ++ (Switch.parameter p).name ++ ": invalid int value: " ++ Text.Quoted.quote value
  | badKey error => "argument " ++ (Switch.parameter .press).name ++ ": " ++ error.message
  | romMissing => "the following arguments are required: rom"
  | unrecognized texts => "unrecognized arguments: " ++ " ".intercalate texts

/-! ## Classes of arguments -/

/-- What an argument is taken for. -/
inductive Argument
  | word (text : String)
  | separator
  | unknown (text : String)
  | switch (s : Switch)
  | assigned (s : Switch) (value : String)
  | blank (p : Parameter)
  | cluster (f : Flag) (tail : List Char)
deriving DecidableEq, Repr

namespace Argument

/-- One or more digits. -/
def isDigits (cs : List Char) : Bool := !cs.isEmpty && cs.all Text.isDecimalDigit

/-- Leaves out a line feed at the end. -/
def dropLineFeed (cs : List Char) : List Char := if cs.getLast? = some '\n' then cs.dropLast else cs

/-- The text after a dash makes a negative number: digits, or any digits with a point and more digits
after them. A line feed at the end does not count. -/
def isNumber (cs : List Char) : Bool :=
  let body := dropLineFeed cs
  isDigits body ||
    match body.dropWhile Text.isDecimalDigit with
    | '.' :: fraction => isDigits fraction
    | _ => false

/-- An argument that starts with a dash and is no switch. -/
def other (tail : List Char) : Argument :=
  let text := String.ofList ('-' :: tail)
  if isNumber tail || tail.contains ' ' then word text else unknown text

/-- The text before the first equals sign, and the text after it if there is such a sign. -/
def cut (cs : List Char) : String × Option String :=
  (String.ofList (cs.takeWhile (· ≠ '=')),
    match cs.dropWhile (· ≠ '=') with
    | _ :: value => some (String.ofList value)
    | [] => none)

/-- A switch, with what follows its equals sign if there is one. -/
def withValue (s : Switch) : Option String → Argument
  | none => switch s
  | some value =>
    match s with
    | .parameter p => if value = "--" then blank p else assigned s value
    | .flag _ => assigned s value

/-- An argument with two dashes and something after them. -/
def ofLong (cs : List Char) : Except UsageError Argument :=
  let (name, value) := cut ('-' :: '-' :: cs)
  match Switch.spelled? name with
  | some s => .ok (withValue s value)
  | none =>
    match Switch.completions name with
    | [] => .ok (other ('-' :: cs))
    | [row] => .ok (withValue row.2 value)
    | rows => .error (.ambiguous (String.ofList ('-' :: '-' :: cs)) (rows.map Prod.fst))

/-- An argument with a single dash and a letter. -/
def ofShort (c : Char) (cs : List Char) : Argument :=
  match Flag.ofLetter? c with
  | none => other (c :: cs)
  | some f =>
    match cs with
    | [] => switch (.flag f)
    | '=' :: tail => cluster f tail
    | tail => cluster f tail

/-- What an argument is taken for, before any double dash. -/
def ofText (text : String) : Except UsageError Argument :=
  match text.toList with
  | '-' :: '-' :: cs => ofLong cs
  | '-' :: c :: cs => .ok (ofShort c cs)
  | _ => .ok (word text)

/-- What each of several arguments is taken for. -/
def ofTexts : List String → Except UsageError (List Argument)
  | [] => .ok []
  | text :: rest =>
    if text = "--" then .ok (separator :: rest.map word)
    else do
      let first ← ofText text
      let others ← ofTexts rest
      .ok (first :: others)

/-- The flags in a cluster: the first and those whose letters make the tail. A tail that is empty or
goes on with anything else is a value for the flag before it. -/
def flags (f : Flag) : List Char → Except UsageError (List Flag)
  | [] => .error (.valueIgnored f "")
  | c :: cs =>
    match Flag.ofLetter? c, cs with
    | none, cs => .error (.valueIgnored f (String.ofList (c :: cs)))
    | some g, [] => .ok [f, g]
    | some g, cs => (flags g cs).map (f :: ·)

end Argument

end Chip8.CommandLine
