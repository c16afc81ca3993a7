import Chip8.Text.Hex
import Chip8.Text.Printable

/-!
# Quoted text

A text in quotes as messages show it. Single quotes are used, unless the text holds a single quote
and no double quote. Backslashes and the quote itself are escaped; a character that is not printable
is written as a letter escape or as its number in two, four or eight small hex digits.
-/

namespace Chip8.Text.Quoted

/-- The quote for a text. -/
def quoteFor (cs : List Char) : Char :=
  if cs.contains (Char.ofNat 0x27) && !cs.contains '"' then '"' else Char.ofNat 0x27

/-- A code point as an escape: a letter that tells the number of digits, and the digits. -/
def escapeNumber (n : Nat) : List Char :=
  let (letter, width) := if n < 0x100 then ('x', 2) else if n < 0x10000 then ('u', 4) else ('U', 8)
  '\\' :: letter :: (Hex.paddedChars width n).map Char.toLower

/-- One character inside the quotes. -/
def escape (quote c : Char) : List Char :=
  if c = quote || c = '\\' then ['\\', c]
  else if c = '\t' then ['\\', 't']
  else if c = '\n' then ['\\', 'n']
  else if c = '\r' then ['\\', 'r']
  else if isPrintable c then [c]
  else escapeNumber c.toNat

/-- A text in quotes. -/
def quote (s : String) : String :=
  let q := quoteFor s.toList
  String.ofList (q :: s.toList.flatMap (escape q) ++ [q])

end Chip8.Text.Quoted
