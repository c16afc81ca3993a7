/-!
# Blanks

The blanks of ASCII are the space and the five layout controls from tab to carriage return. Other
scripts add their own spaces and the line and paragraph separators.
-/

namespace Chip8.Text

/-- A blank of ASCII. -/
def isAsciiBlank (c : Char) : Bool := c = ' ' || (0x09 ≤ c.toNat && c.toNat ≤ 0x0D)

/-- A blank outside ASCII. -/
def isWideBlank (c : Char) : Bool :=
  let n := c.toNat
  n = 0x85 || n = 0xA0 || n = 0x1680 || (0x2000 ≤ n && n ≤ 0x200A) || n = 0x2028 || n = 0x2029
    || n = 0x202F || n = 0x205F || n = 0x3000

end Chip8.Text
