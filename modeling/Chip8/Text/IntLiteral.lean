import Chip8.Text.Blank
import Chip8.Text.DecimalDigit
import Chip8.Text.Hex

/-!
# Integer literals

An integer as a user types it: blanks around it, a sign, digits with single underscores between
them. In base sixteen a 0x may stand before the digits, and one underscore after the 0x. Digits and
blanks of other scripts count as those of ASCII.

A decimal literal of more than 4300 digits is refused.
-/

namespace Chip8.Text.IntLiteral

/-! ## Characters of other scripts -/

/-- The ASCII character that stands for a character of another script; none if there is none. -/
def asciiFor? (c : Char) : Option Char :=
  if c.toNat < 0x7F then some c
  else if isWideBlank c then some ' '
  else (decimalValue c).map Hex.digit

/-! ## Digits -/

/-- The value of a digit in a base up to sixteen. -/
def digitIn? (base : Nat) (c : Char) : Option Nat :=
  match Hex.digitValue c with
  | some d => if d < base then some d else none
  | none => none

/-- The values of digits with single underscores between them, after a digit. -/
def moreDigits? (base : Nat) : List Char → Option (List Nat)
  | [] => some []
  | '_' :: c :: cs => do
    let d ← digitIn? base c
    let ds ← moreDigits? base cs
    some (d :: ds)
  | c :: cs => do
    let d ← digitIn? base c
    let ds ← moreDigits? base cs
    some (d :: ds)

/-- The values of one or more digits with single underscores between them. -/
def digits? (base : Nat) : List Char → Option (List Nat)
  | [] => none
  | c :: cs => do
    let d ← digitIn? base c
    let ds ← moreDigits? base cs
    some (d :: ds)

/-- The number of a list of digits, high to low. -/
def ofDigits (base : Nat) (ds : List Nat) : Nat := ds.foldl (fun n d => base * n + d) 0

/-! ## Literals -/

/-- The longest decimal literal that is read. -/
def maxDecimalDigits : Nat := 4300

/-- What follows the 0x of a literal in base sixteen, or all of it. -/
def afterMarker (base : Nat) : List Char → List Char
  | '0' :: x :: '_' :: cs =>
    if base = 16 ∧ (x = 'x' ∨ x = 'X') then cs else '0' :: x :: '_' :: cs
  | '0' :: x :: cs => if base = 16 ∧ (x = 'x' ∨ x = 'X') then cs else '0' :: x :: cs
  | cs => cs

/-- The number of a literal without blanks and sign. -/
def magnitude? (base : Nat) (cs : List Char) : Option Nat := do
  let ds ← digits? base (afterMarker base cs)
  if base = 10 ∧ maxDecimalDigits < ds.length then none else some (ofDigits base ds)

/-- The number of a literal without blanks. -/
def signed? (base : Nat) : List Char → Option Int
  | '-' :: cs => (magnitude? base cs).map fun n => -(n : Int)
  | '+' :: cs => (magnitude? base cs).map Int.ofNat
  | cs => (magnitude? base cs).map Int.ofNat

/-- Leaves out the blanks at both ends. -/
def trim (cs : List Char) : List Char :=
  ((cs.dropWhile isAsciiBlank).reverse.dropWhile isAsciiBlank).reverse

/-- The integer that a text denotes in base ten or sixteen. -/
def parse? (base : Nat) (s : String) : Option Int := do
  let cs ← s.toList.mapM asciiFor?
  signed? base (trim cs)

end Chip8.Text.IntLiteral
