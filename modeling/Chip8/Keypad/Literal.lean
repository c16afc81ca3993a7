import Chip8.Keypad
import Chip8.Text.IntLiteral
import Chip8.Text.Quoted

/-!
# Key literals

A key as a user types it: an integer in base sixteen that is the index of a key. A text that is no
integer and an integer that is no index are told apart.
-/

namespace Chip8

/-- Why a text denotes no key. -/
inductive KeyLiteralError
  | malformed (text : String)
  | outside (text : String)
deriving DecidableEq, Repr

/-- The text of a refused key literal. -/
def KeyLiteralError.message : KeyLiteralError → String
  | .malformed text => "not a hex key: " ++ Text.Quoted.quote text
  | .outside text => "key must be 0-F, got " ++ Text.Quoted.quote text

namespace Keypad

/-- The key that a text denotes. -/
def parse (text : String) : Except KeyLiteralError Nibble :=
  match Text.IntLiteral.parse? 16 text with
  | none => .error (.malformed text)
  | some n =>
    match key? n with
    | some key => .ok key
    | none => .error (.outside text)

/-- A text denotes a key if it denotes the index of the key. -/
theorem parse_eq_ok_iff {text : String} {key : Nibble} :
    parse text = .ok key ↔ Text.IntLiteral.parse? 16 text = some (key.val : Int) := by
  unfold parse
  cases hn : Text.IntLiteral.parse? 16 text with
  | none => simp
  | some n =>
    simp only [Option.some.injEq]
    rw [← key?_eq_some_iff]
    cases key? n with
    | none => simp
    | some found => simp

end Keypad

end Chip8
