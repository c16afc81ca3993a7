import Chip8.Alu
import Chip8.Machine.Handlers

/-!
# Arithmetic on bytes

The operations are defined on all integers, and a register takes the low byte of a result. On bytes
nothing is cut: every result is a byte as it stands (`Alu.IsByte`), and the flag holds what the byte
does not.
-/

namespace Chip8.Alu

/-- The integer is a byte as it stands. -/
def IsByte (n : Int) : Prop := 0 ≤ n ∧ n ≤ 255

theorem isByte_toInt (b : Byte) : IsByte b.toInt := by
  have hb := b.toNat_lt
  unfold IsByte Byte.toInt
  omega

theorem isByte_emod (n : Int) : IsByte (n % 256) := by
  unfold IsByte
  omega

/-- The low byte of a byte is the byte. -/
theorem toInt_ofInt_of_isByte {n : Int} (h : IsByte n) : (Byte.ofInt n).toInt = n := by
  obtain ⟨hlow, hhigh⟩ := h
  rw [Byte.toInt_ofInt]
  omega

/-- The shift that is not reduced halves a byte, so it stays one. -/
theorem isByte_shr8 {a : Int} (h : IsByte a) : IsByte (shr8 a).result := by
  obtain ⟨hlow, hhigh⟩ := h
  unfold IsByte shr8
  simp only
  omega

theorem isByte_bcd {a : Int} (h : IsByte a) :
    IsByte (bcd a).1 ∧ IsByte (bcd a).2.1 ∧ IsByte (bcd a).2.2 := by
  obtain ⟨hlow, hhigh⟩ := h
  unfold IsByte bcd
  simp only
  omega

/-! ## What the flags are worth

On bytes a flag is the ninth bit of its operation, so a result with its flag loses nothing. -/

theorem add8_exact {a b : Int} (ha : IsByte a) (hb : IsByte b) :
    (add8 a b).result + 256 * (add8 a b).flag.toInt = a + b := by
  unfold IsByte at ha hb
  unfold add8
  by_cases hcarry : 255 < a + b <;> simp [hcarry, Bool.toInt] <;> omega

theorem sub8_exact {a b : Int} (ha : IsByte a) (hb : IsByte b) :
    (sub8 a b).result = a - b + 256 * (1 - (sub8 a b).flag.toInt) := by
  unfold IsByte at ha hb
  unfold sub8
  by_cases hkept : b ≤ a <;> simp [hkept, Bool.toInt] <;> omega

theorem shl8_exact {a : Int} (ha : IsByte a) :
    2 * a = (shl8 a).result + 256 * (shl8 a).flag.toInt := by
  unfold IsByte at ha
  unfold shl8
  by_cases hout : a / 128 % 2 = 1 <;> simp [hout, Bool.toInt] <;> omega

/-- The results of all operations on two integers are bytes as they stand. -/
structure Fits (a b : Int) : Prop where
  add8 : IsByte (add8 a b).result
  sub8 : IsByte (sub8 a b).result
  shr8 : IsByte (shr8 a).result
  shl8 : IsByte (shl8 a).result
  addWrapping : IsByte (addWrapping a b)

theorem fits_of_isByte {a : Int} (h : IsByte a) (b : Int) : Fits a b where
  add8 := isByte_emod (a + b)
  sub8 := isByte_emod (a - b)
  shr8 := isByte_shr8 h
  shl8 := isByte_emod (2 * a)
  addWrapping := isByte_emod (a + b)

end Chip8.Alu

namespace Chip8

theorem Byte.toNat_ofInt_addWrapping (a b : Byte) :
    (Byte.ofInt (Alu.addWrapping a.toInt b.toInt)).toNat = (a.toNat + b.toNat) % 256 := by
  have hlow := Byte.toInt_ofInt (Alu.addWrapping a.toInt b.toInt)
  unfold Alu.addWrapping Byte.toInt at *
  omega

/-- The bytes that stand for the decimal digits are the digits themselves. -/
theorem Byte.toInt_decimalDigits (b : Byte) :
    b.decimalDigits.map Byte.toInt =
      [(Alu.bcd b.toInt).1, (Alu.bcd b.toInt).2.1, (Alu.bcd b.toInt).2.2] := by
  obtain ⟨hhundreds, htens, hunits⟩ := Alu.isByte_bcd (Alu.isByte_toInt b)
  unfold Byte.decimalDigits
  simp only [List.map_cons, List.map_nil, Alu.toInt_ofInt_of_isByte hhundreds,
    Alu.toInt_ofInt_of_isByte htens, Alu.toInt_ofInt_of_isByte hunits]

end Chip8
