import Chip8.Opcode

/-!
# Which words are which instruction

The look-up goes through keys. Here the words of an instruction are told by their fields alone, which
is how statements about programs name them: `2nnn` is a word of group 2, `Fx33` one of group F with
last byte 33.
-/

namespace Chip8.Opcode

/-- An instruction without a sub-tag has all the words of its group. -/
theorem ofWord?_eq_some_iff_group {w : Word} {op : Opcode} (hop : op.key.subTag = none) :
    ofWord? w = some op ↔ w.group.val = op.key.group := by
  rw [ofWord?_eq_some_iff]
  constructor
  · intro h
    exact congrArg Key.group h
  · intro h
    have hkey : op.key = ⟨w.group.val, none⟩ := by
      rw [h, ← hop]
    rw [hkey, Word.key]
    congr 1
    rw [h]
    cases op <;> first | rfl | cases hop

/-- In groups E and F the last byte tells the instruction. -/
theorem ofWord?_eq_some_iff_kk {w : Word} {op : Opcode} {g : Nibble} {b : Byte}
    (hg : g = 0xE ∨ g = 0xF) (hop : op.key = ⟨g.val, some b.toNat⟩) :
    ofWord? w = some op ↔ w.group = g ∧ w.kk = b := by
  rw [ofWord?_eq_some_iff, hop, Word.key]
  constructor
  · intro h
    have hgroup : w.group = g := Fin.ext (congrArg Key.group h)
    have htag := congrArg Key.subTag h
    rcases hg with rfl | rfl <;> rw [hgroup] at htag
    all_goals exact ⟨hgroup, UInt8.toNat_inj.mp (Option.some.inj htag)⟩
  · rintro ⟨hgroup, rfl⟩
    rcases hg with rfl | rfl <;> rw [hgroup] <;> rfl

/-- Only the word 00EE is a return. -/
theorem ofWord?_eq_some_ret_iff {w : Word} : ofWord? w = some .ret ↔ w = 0x00EE := by
  rw [ofWord?_eq_some_iff]
  constructor
  · intro h
    have hgroup : w.group.val = 0 := congrArg Key.group h
    have htag := congrArg Key.subTag h
    rw [Word.key, hgroup] at htag
    have hnnn : w.nnn = 0x0EE := Option.some.inj htag
    have hw := Word.toNat_eq_group_nnn w
    apply UInt16.toNat_inj.mp
    rw [hw, hgroup, hnnn]
    rfl
  · rintro rfl
    rfl

end Chip8.Opcode
