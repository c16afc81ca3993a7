import Chip8.Proofs.Step

/-!
# What each instruction leaves alone

Most instructions change one thing. `Opcode.Frame` says for each part of the core which instructions
may change it; all others leave it as it was. Statements about one part then need only those cases.
-/

namespace Chip8.Opcode

/-- PC moves to the next word, whatever else the instruction does. -/
def movesOn : Opcode → Bool
  | .ret | .jp | .call | .jpV0 => false
  | .seByte | .sneByte | .seReg | .sneReg | .skp | .sknp => false
  | .ldVxK => false
  | _ => true

/-- What the instruction leaves of a core. -/
structure Frame (op : Opcode) (c next : Core) : Prop where
  pc : op.movesOn → next.regs.pc = c.regs.pc + 2
  i : op ∉ [.ldI, .addIVx, .ldFVx, .ldMemVx, .ldVxMem] → next.regs.i = c.regs.i
  calls : op ∉ [.call, .ret] → next.regs.calls = c.regs.calls
  memory : op ∉ [.ldBVx, .ldMemVx] → next.memory = c.memory
  timers : op ∉ [.ldDtVx, .ldStVx] → next.timers = c.timers
  random : op ≠ .rnd → next.random = c.random
  steps : next.steps = c.steps

theorem ensures_frame (op : Opcode) (w : Word) (c : Core) : Ensures (op.Frame c) (op.exec w c) := by
  -- an instruction that can fault goes by the lemma of its operation; all others put fields
  cases op with
  | call => exact ensures_call fun _ _ => by constructor <;> simp [movesOn]
  | ret => exact ensures_ret fun _ _ _ => by constructor <;> simp [movesOn]
  | drw => exact ensures_readIndexed fun _ reply => by constructor <;> simp
  | ldVxMem => exact ensures_readIndexed fun _ => by constructor <;> simp
  | ldBVx | ldMemVx => exact ensures_writeIndexed fun _ => by constructor <;> simp
  | ldVxK => rintro (_ | key) <;> constructor <;> simp [movesOn]
  | cls | skp | sknp => exact fun reply => by constructor <;> simp [movesOn]
  | _ => simp only [exec, ensures_done]; constructor <;> simp [movesOn]

theorem Yields.frame {op : Opcode} {w : Word} {c next : Core} (h : op.Yields w c next) :
    op.Frame c next :=
  h.of_ensures (ensures_frame op w c)

end Chip8.Opcode
