/-!
# Bytes and instruction words

A register holds a byte, an instruction is a 16-bit word. A word is read through its fields:

    group x y n      four hex digits, high to low
    nnn              the low three digits, an address
    kk               the low two digits, a byte

Every field is a quotient or remainder of the word's number, so that statements about fields are
statements of linear arithmetic.
-/

namespace Chip8

/-- An 8-bit value. -/
abbrev Byte := UInt8

/-- A 16-bit value. -/
abbrev Word := UInt16

/-- One hex digit; also the index of a register, a key or a stack slot. -/
abbrev Nibble := Fin 16

theorem Nibble.val_lt (x : Nibble) : x.val < 16 := x.isLt

/-! ## Integers reduced to a width -/

/-- The low eight bits of an integer. -/
def Byte.ofInt (n : Int) : Byte := UInt8.ofNat (n % 256).toNat

/-- The low sixteen bits of an integer. -/
def Word.ofInt (n : Int) : Word := UInt16.ofNat (n % 65536).toNat

/-- A byte as an integer. -/
def Byte.toInt (b : Byte) : Int := b.toNat

theorem Byte.toInt_ofInt (n : Int) : (Byte.ofInt n).toInt = n % 256 := by
  unfold Byte.toInt Byte.ofInt
  rw [UInt8.toNat_ofNat']
  omega

theorem Word.toNat_ofInt (n : Int) : ((Word.ofInt n).toNat : Int) = n % 65536 := by
  unfold Word.ofInt
  rw [UInt16.toNat_ofNat']
  omega

/-- Reducing a byte's own number gives the byte back. -/
theorem Byte.ofInt_toInt (b : Byte) : Byte.ofInt b.toInt = b := by
  have hb := b.toNat_lt
  apply UInt8.toNat_inj.mp
  unfold Byte.toInt Byte.ofInt
  rw [UInt8.toNat_ofNat']
  omega

/-! ## Fields of a word -/

namespace Word

/-- The word of a high and a low byte. -/
def ofBytes (high low : Byte) : Word := UInt16.ofNat (256 * high.toNat + low.toNat)

/-- The first digit, the instruction group. -/
def group (w : Word) : Nibble := ⟨w.toNat / 4096, by have := w.toNat_lt; omega⟩

/-- The second digit, the first register operand. -/
def x (w : Word) : Nibble := ⟨w.toNat / 256 % 16, Nat.mod_lt _ (by decide)⟩

/-- The third digit, the second register operand. -/
def y (w : Word) : Nibble := ⟨w.toNat / 16 % 16, Nat.mod_lt _ (by decide)⟩

/-- The fourth digit, a small count or a sub-operation. -/
def n (w : Word) : Nibble := ⟨w.toNat % 16, Nat.mod_lt _ (by decide)⟩

/-- The low three digits, an address. -/
def nnn (w : Word) : Nat := w.toNat % 4096

/-- The low two digits, a byte. -/
def kk (w : Word) : Byte := UInt8.ofNat w.toNat

theorem nnn_lt (w : Word) : w.nnn < 4096 := Nat.mod_lt _ (by decide)

theorem toNat_kk (w : Word) : w.kk.toNat = w.toNat % 256 := by
  unfold kk
  rw [UInt8.toNat_ofNat']

/-- The group and the address make up the word. -/
theorem toNat_eq_group_nnn (w : Word) : w.toNat = 4096 * w.group + w.nnn := by
  unfold group nnn
  simp only
  omega

/-- The four digits make up the word. -/
theorem toNat_eq_digits (w : Word) :
    w.toNat = 4096 * w.group + 256 * w.x + 16 * w.y + w.n := by
  unfold group x y n
  simp only
  omega

/-- The last two digits make up the byte operand. -/
theorem toNat_kk_eq_digits (w : Word) : w.kk.toNat = 16 * w.y + w.n := by
  rw [toNat_kk]
  unfold y n
  simp only
  omega

end Word

end Chip8
