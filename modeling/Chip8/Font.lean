import Chip8.Word

/-!
# The built-in font

Sixteen glyphs, one for each hex digit, of five rows each. A glyph is four pixels wide and stands in
the high half of its rows. The table lies at the bottom of memory.
-/

namespace Chip8.Font

/-- The number of rows of a glyph. -/
def glyphSize : Nat := 5

/-- The rows of the glyphs, from digit 0 to digit F. -/
def table : List Byte :=
  [0xF0, 0x90, 0x90, 0x90, 0xF0,
   0x20, 0x60, 0x20, 0x20, 0x70,
   0xF0, 0x10, 0xF0, 0x80, 0xF0,
   0xF0, 0x10, 0xF0, 0x10, 0xF0,
   0x90, 0x90, 0xF0, 0x10, 0x10,
   0xF0, 0x80, 0xF0, 0x10, 0xF0,
   0xF0, 0x80, 0xF0, 0x90, 0xF0,
   0xF0, 0x10, 0x20, 0x40, 0x40,
   0xF0, 0x90, 0xF0, 0x90, 0xF0,
   0xF0, 0x90, 0xF0, 0x10, 0xF0,
   0xF0, 0x90, 0xF0, 0x90, 0x90,
   0xE0, 0x90, 0xE0, 0x90, 0xE0,
   0xF0, 0x80, 0x80, 0x80, 0xF0,
   0xE0, 0x90, 0x90, 0x90, 0xE0,
   0xF0, 0x80, 0xF0, 0x80, 0xF0,
   0xF0, 0x80, 0xF0, 0x80, 0x80]

/-- The number of bytes of the table. -/
def size : Nat := 80

theorem length_table : table.length = size := rfl

/-- The address of a digit's glyph. The font does not end at F for this rule: any integer has the
address it would have if the table went on. -/
def address (digit : Int) : Int := glyphSize * digit

/-- The five rows of a digit. -/
def glyph (digit : Nibble) : List Byte := (table.drop (glyphSize * digit)).take glyphSize

end Chip8.Font
