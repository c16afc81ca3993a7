import Chip8.Word

/-!
# The instruction set

Thirty-four instructions. Each has a row of the table: its key (the group, and for a group that
holds several instructions a sub-tag), its mnemonic and its written pattern.

A word is an instruction if its key is in the table (`Opcode.ofWord?`). The sub-tag is the address
field in group 0, the last digit in groups 5, 8 and 9, and the last byte in groups E and F. Words
outside the table are unsupported; the machine steps over them.
-/

namespace Chip8

/-- The instructions, in the order of the table: those with a sub-tag first, then by key. -/
inductive Opcode
  | cls | ret
  | seReg
  | ldReg | or | and | xor | addReg | sub | shr | subn | shl
  | sneReg
  | skp | sknp
  | ldVxDt | ldVxK | ldDtVx | ldStVx | addIVx | ldFVx | ldBVx | ldMemVx | ldVxMem
  | jp | call | seByte | sneByte | ldByte | addByte | ldI | jpV0 | rnd | drw
deriving DecidableEq, Repr

/-- What tells a word's instruction: its group and, in some groups, a sub-tag. -/
structure Key where
  group : Nat
  subTag : Option Nat
deriving DecidableEq, Repr

/-- The key of a word. -/
def Word.key (w : Word) : Key :=
  { group := w.group
    subTag := match w.group.val with
      | 0x0 => some w.nnn
      | 0x5 | 0x8 | 0x9 => some w.n
      | 0xE | 0xF => some w.kk.toNat
      | _ => none }

namespace Opcode

/-- All instructions, in the order of the table. -/
def all : List Opcode :=
  [.cls, .ret, .seReg,
   .ldReg, .or, .and, .xor, .addReg, .sub, .shr, .subn, .shl,
   .sneReg, .skp, .sknp,
   .ldVxDt, .ldVxK, .ldDtVx, .ldStVx, .addIVx, .ldFVx, .ldBVx, .ldMemVx, .ldVxMem,
   .jp, .call, .seByte, .sneByte, .ldByte, .addByte, .ldI, .jpV0, .rnd, .drw]

theorem mem_all (op : Opcode) : op ∈ all := by cases op <;> decide

/-! ## The columns of the table -/

/-- The key under which an instruction stands in the table. -/
def key : Opcode → Key
  | .cls => ⟨0x0, some 0x0E0⟩
  | .ret => ⟨0x0, some 0x0EE⟩
  | .seReg => ⟨0x5, some 0x0⟩
  | .ldReg => ⟨0x8, some 0x0⟩
  | .or => ⟨0x8, some 0x1⟩
  | .and => ⟨0x8, some 0x2⟩
  | .xor => ⟨0x8, some 0x3⟩
  | .addReg => ⟨0x8, some 0x4⟩
  | .sub => ⟨0x8, some 0x5⟩
  | .shr => ⟨0x8, some 0x6⟩
  | .subn => ⟨0x8, some 0x7⟩
  | .shl => ⟨0x8, some 0xE⟩
  | .sneReg => ⟨0x9, some 0x0⟩
  | .skp => ⟨0xE, some 0x9E⟩
  | .sknp => ⟨0xE, some 0xA1⟩
  | .ldVxDt => ⟨0xF, some 0x07⟩
  | .ldVxK => ⟨0xF, some 0x0A⟩
  | .ldDtVx => ⟨0xF, some 0x15⟩
  | .ldStVx => ⟨0xF, some 0x18⟩
  | .addIVx => ⟨0xF, some 0x1E⟩
  | .ldFVx => ⟨0xF, some 0x29⟩
  | .ldBVx => ⟨0xF, some 0x33⟩
  | .ldMemVx => ⟨0xF, some 0x55⟩
  | .ldVxMem => ⟨0xF, some 0x65⟩
  | .jp => ⟨0x1, none⟩
  | .call => ⟨0x2, none⟩
  | .seByte => ⟨0x3, none⟩
  | .sneByte => ⟨0x4, none⟩
  | .ldByte => ⟨0x6, none⟩
  | .addByte => ⟨0x7, none⟩
  | .ldI => ⟨0xA, none⟩
  | .jpV0 => ⟨0xB, none⟩
  | .rnd => ⟨0xC, none⟩
  | .drw => ⟨0xD, none⟩

/-- The name of an instruction in the trace. -/
def mnemonic : Opcode → String
  | .cls => "CLS"
  | .ret => "RET"
  | .seReg => "SE_REG"
  | .ldReg => "LD_REG"
  | .or => "OR"
  | .and => "AND"
  | .xor => "XOR"
  | .addReg => "ADD_REG"
  | .sub => "SUB"
  | .shr => "SHR"
  | .subn => "SUBN"
  | .shl => "SHL"
  | .sneReg => "SNE_REG"
  | .skp => "SKP"
  | .sknp => "SKNP"
  | .ldVxDt => "LD_VX_DT"
  | .ldVxK => "LD_VX_K"
  | .ldDtVx => "LD_DT_VX"
  | .ldStVx => "LD_ST_VX"
  | .addIVx => "ADD_I_VX"
  | .ldFVx => "LD_F_VX"
  | .ldBVx => "LD_B_VX"
  | .ldMemVx => "LD_MEM_VX"
  | .ldVxMem => "LD_VX_MEM"
  | .jp => "JP"
  | .call => "CALL"
  | .seByte => "SE_BYTE"
  | .sneByte => "SNE_BYTE"
  | .ldByte => "LD_BYTE"
  | .addByte => "ADD_BYTE"
  | .ldI => "LD_I"
  | .jpV0 => "JP_V0"
  | .rnd => "RND"
  | .drw => "DRW"

/-- The four digits of an instruction's words: an upper-case hex digit stands for itself, a small
letter for an operand digit. -/
def pattern : Opcode → String
  | .cls => "00E0"
  | .ret => "00EE"
  | .seReg => "5xy0"
  | .ldReg => "8xy0"
  | .or => "8xy1"
  | .and => "8xy2"
  | .xor => "8xy3"
  | .addReg => "8xy4"
  | .sub => "8xy5"
  | .shr => "8xy6"
  | .subn => "8xy7"
  | .shl => "8xyE"
  | .sneReg => "9xy0"
  | .skp => "Ex9E"
  | .sknp => "ExA1"
  | .ldVxDt => "Fx07"
  | .ldVxK => "Fx0A"
  | .ldDtVx => "Fx15"
  | .ldStVx => "Fx18"
  | .addIVx => "Fx1E"
  | .ldFVx => "Fx29"
  | .ldBVx => "Fx33"
  | .ldMemVx => "Fx55"
  | .ldVxMem => "Fx65"
  | .jp => "1nnn"
  | .call => "2nnn"
  | .seByte => "3xkk"
  | .sneByte => "4xkk"
  | .ldByte => "6xkk"
  | .addByte => "7xkk"
  | .ldI => "Annn"
  | .jpV0 => "Bnnn"
  | .rnd => "Cxkk"
  | .drw => "Dxyn"

/-! ## Look-up -/

/-- The instruction with a given key. -/
def ofKey? : Key → Option Opcode
  | ⟨0x0, some 0x0E0⟩ => some .cls
  | ⟨0x0, some 0x0EE⟩ => some .ret
  | ⟨0x1, none⟩ => some .jp
  | ⟨0x2, none⟩ => some .call
  | ⟨0x3, none⟩ => some .seByte
  | ⟨0x4, none⟩ => some .sneByte
  | ⟨0x5, some 0x0⟩ => some .seReg
  | ⟨0x6, none⟩ => some .ldByte
  | ⟨0x7, none⟩ => some .addByte
  | ⟨0x8, some 0x0⟩ => some .ldReg
  | ⟨0x8, some 0x1⟩ => some .or
  | ⟨0x8, some 0x2⟩ => some .and
  | ⟨0x8, some 0x3⟩ => some .xor
  | ⟨0x8, some 0x4⟩ => some .addReg
  | ⟨0x8, some 0x5⟩ => some .sub
  | ⟨0x8, some 0x6⟩ => some .shr
  | ⟨0x8, some 0x7⟩ => some .subn
  | ⟨0x8, some 0xE⟩ => some .shl
  | ⟨0x9, some 0x0⟩ => some .sneReg
  | ⟨0xA, none⟩ => some .ldI
  | ⟨0xB, none⟩ => some .jpV0
  | ⟨0xC, none⟩ => some .rnd
  | ⟨0xD, none⟩ => some .drw
  | ⟨0xE, some 0x9E⟩ => some .skp
  | ⟨0xE, some 0xA1⟩ => some .sknp
  | ⟨0xF, some 0x07⟩ => some .ldVxDt
  | ⟨0xF, some 0x0A⟩ => some .ldVxK
  | ⟨0xF, some 0x15⟩ => some .ldDtVx
  | ⟨0xF, some 0x18⟩ => some .ldStVx
  | ⟨0xF, some 0x1E⟩ => some .addIVx
  | ⟨0xF, some 0x29⟩ => some .ldFVx
  | ⟨0xF, some 0x33⟩ => some .ldBVx
  | ⟨0xF, some 0x55⟩ => some .ldMemVx
  | ⟨0xF, some 0x65⟩ => some .ldVxMem
  | _ => none

theorem ofKey?_key (op : Opcode) : ofKey? op.key = some op := by cases op <;> rfl

/-- The look-up finds exactly the instruction whose row has the key. -/
theorem ofKey?_eq_some_iff {k : Key} {op : Opcode} : ofKey? k = some op ↔ k = op.key := by
  constructor
  · intro h
    unfold ofKey? at h
    split at h <;> cases h <;> rfl
  · rintro rfl
    exact ofKey?_key op

/-- The instruction of a word, if the word is supported. -/
def ofWord? (w : Word) : Option Opcode := ofKey? w.key

theorem ofWord?_eq_some_iff {w : Word} {op : Opcode} : ofWord? w = some op ↔ w.key = op.key :=
  ofKey?_eq_some_iff

end Opcode

end Chip8
