import Chip8.Opcode
import Chip8.Text.Hex

/-!
# Written patterns

A pattern such as `8xy4` says which words belong to an instruction: an upper-case hex digit matches
itself, the letters x, y, n and k match any digit. This reads the pattern column of the table on its
own, without the keys.
-/

namespace Chip8

/-- The four hex digits of a word, high to low. -/
def Word.digits (w : Word) : List Nibble := [w.group, w.x, w.y, w.n]

namespace Opcode

/-- One place of a pattern against one digit. -/
def placeAccepts (c : Char) (d : Nibble) : Bool :=
  ['x', 'y', 'n', 'k'].contains c || c == Text.Hex.digit d

/-- A pattern against the digits of a word, place by place. -/
def placesAccept : List Char → List Nibble → Bool
  | [], [] => true
  | c :: cs, d :: ds => placeAccepts c d && placesAccept cs ds
  | _, _ => false

/-- The digits of the word fit the pattern of the instruction. -/
def Matches (op : Opcode) (w : Word) : Prop := placesAccept op.pattern.toList w.digits = true

instance (op : Opcode) (w : Word) : Decidable (op.Matches w) :=
  inferInstanceAs (Decidable (_ = true))

end Opcode

end Chip8
