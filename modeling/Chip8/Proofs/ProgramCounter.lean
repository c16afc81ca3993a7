import Chip8.FrameBuffer
import Chip8.Proofs.CallReturn
import Chip8.Proofs.Patterns

/-!
# Where a step goes on

PC moves in four places: an instruction puts it, a skip moves it by one word or two, a key wait leaves
it, and all else moves on, a word that is no instruction too. `Machine.GoesOn` says by the word which
of them takes place. The key instructions go by the surface's answer, so what an instruction yields
for some answer is not enough for them; `Machine.step_of_ask` gives the answer itself.

* `Machine.goesOn_of_executed` — each instruction
* `Machine.step_program_counter` — each step that does not fault
-/

namespace Chip8

/-! ## The law -/

/-- The words that do not simply move on to the next word. -/
def Word.steering : List String :=
  ["1nnn", "2nnn", "Bnnn", "00EE", "Fx0A", "3xkk", "4xkk", "5xy0", "9xy0", "Ex9E", "ExA1"]

/-- After a step on the word `w` a machine goes on at `pc`. All that `pc` depends on is taken from the
machine before the step. -/
structure Machine.GoesOn {σ : Type} [Surface σ] (m : Machine σ) (w : Word) (pc : Int) : Prop where
  jump : w.FitsAny ["1nnn", "2nnn"] → pc = w.nnn
  offset : w.Fits "Bnnn" → pc = w.nnn + (m.core.regs.get 0).toInt
  /-- The call whose address is popped is not made again. -/
  ret : w.Fits "00EE" → ∃ k : Nibble, k.val + 1 = m.core.regs.calls.depth.val ∧
    pc = (m.core.regs.calls.slot k).toNat + 2
  wait : w.Fits "Fx0A" → ∃ key? next, Surface.ask m.surface .anyKey = .ok (key?, next) ∧
    pc = m.core.regs.pc + if key? = none then 0 else 2
  eqByte : w.Fits "3xkk" → pc = m.core.regs.pc + if m.core.regs.get w.x = w.kk then 4 else 2
  neByte : w.Fits "4xkk" → pc = m.core.regs.pc + if m.core.regs.get w.x ≠ w.kk then 4 else 2
  eqReg : w.Fits "5xy0" →
    pc = m.core.regs.pc + if m.core.regs.get w.x = m.core.regs.get w.y then 4 else 2
  neReg : w.Fits "9xy0" →
    pc = m.core.regs.pc + if m.core.regs.get w.x ≠ m.core.regs.get w.y then 4 else 2
  pressed : w.Fits "Ex9E" → ∃ held next,
    Surface.ask m.surface (.key (m.core.regs.get w.x)) = .ok (held, next) ∧
    pc = m.core.regs.pc + if held = true then 4 else 2
  released : w.Fits "ExA1" → ∃ held next,
    Surface.ask m.surface (.key (m.core.regs.get w.x)) = .ok (held, next) ∧
    pc = m.core.regs.pc + if held = true then 2 else 4
  other : ¬ w.FitsAny Word.steering → pc = m.core.regs.pc + 2

/-! ## Instructions -/

theorem Core.pc_skipIf {c : Core} {condition : Bool} {p : Prop} [Decidable p]
    (h : condition = true ↔ p) :
    (c.skipIf condition).regs.pc = c.regs.pc + if p then 4 else 2 := by
  show c.regs.pc + (if condition = true then 4 else 2) = _
  simp only [h]

namespace Opcode

/-- The instructions of the steering words. -/
def steering : List Opcode :=
  [.jp, .call, .jpV0, .ret, .ldVxK, .seByte, .sneByte, .seReg, .sneReg, .skp, .sknp]

theorem map_pattern_steering : steering.map pattern = Word.steering := rfl

theorem movesOn_of_not_mem_steering {op : Opcode} : op ∉ steering → op.movesOn = true := by
  cases op <;> decide

/-- A return takes its address from the slot below the depth. -/
theorem Yields.pc_ret {w : Word} {c next : Core} (h : Yields .ret w c next) :
    ∃ k : Nibble, k.val + 1 = c.regs.calls.depth.val ∧
      next.regs.pc = (c.regs.calls.slot k).toNat + 2 := by
  refine h.of_ensures (ensures_ret fun caller calls hpop => ?_)
  have hdepth := CallStack.depth_pop hpop
  have hd := c.regs.calls.depth.isLt
  refine ⟨⟨calls.depth.val, by omega⟩, hdepth, ?_⟩
  rw [← CallStack.popped_eq_slot hpop rfl]

end Opcode

/-! ## Steps -/

namespace Machine

variable {σ : Type} [Surface σ] {m : Machine σ} {w : Word} {op : Opcode}

theorem goesOn_of_executed (hfetch : m.core.fetch = .ok w) (hop : Opcode.ofWord? w = some op)
    (h : m.step.fault? = none) (hyields : op.Yields w m.core.tick m.step.machine.core) :
    m.GoesOn w m.step.machine.core.regs.pc := by
  have hfits : ∀ k : Opcode, w.Fits k.pattern → op = k := fun k =>
    Word.eq_of_fits_of_ofWord? hop
  constructor
  case jump =>
    rintro ⟨p, hp, hw⟩
    obtain rfl | rfl : p = "1nnn" ∨ p = "2nnn" := by simpa using hp
    · obtain rfl := hfits .jp hw
      exact hyields.of_ensures rfl
    · obtain rfl := hfits .call hw
      exact hyields.of_ensures (Opcode.ensures_call fun _ _ => rfl)
  case offset =>
    intro hw
    obtain rfl := hfits .jpV0 hw
    exact hyields.of_ensures rfl
  case ret =>
    intro hw
    obtain rfl := hfits .ret hw
    exact hyields.pc_ret
  case wait =>
    intro hw
    obtain rfl := hfits .ldVxK hw
    obtain ⟨key?, next, hask, hstep⟩ := step_of_ask hfetch hop rfl h
    refine ⟨key?, next, hask, ?_⟩
    rw [hstep]
    cases key? with
    | none => exact (Int.add_zero _).symm
    | some key => rfl
  case eqByte =>
    intro hw
    obtain rfl := hfits .seByte hw
    exact hyields.of_ensures (Core.pc_skipIf beq_iff_eq)
  case neByte =>
    intro hw
    obtain rfl := hfits .sneByte hw
    exact hyields.of_ensures (Core.pc_skipIf bne_iff_ne)
  case eqReg =>
    intro hw
    obtain rfl := hfits .seReg hw
    exact hyields.of_ensures (Core.pc_skipIf beq_iff_eq)
  case neReg =>
    intro hw
    obtain rfl := hfits .sneReg hw
    exact hyields.of_ensures (Core.pc_skipIf bne_iff_ne)
  case pressed =>
    intro hw
    obtain rfl := hfits .skp hw
    obtain ⟨held, next, hask, hstep⟩ := step_of_ask hfetch hop rfl h
    exact ⟨held, next, hask, by rw [hstep]; rfl⟩
  case released =>
    intro hw
    obtain rfl := hfits .sknp hw
    obtain ⟨held, next, hask, hstep⟩ := step_of_ask hfetch hop rfl h
    refine ⟨held, next, hask, ?_⟩
    rw [hstep]
    cases held <;> rfl
  case other =>
    intro hw
    refine hyields.frame.pc (Opcode.movesOn_of_not_mem_steering fun hmem => hw ?_)
    rw [← Opcode.map_pattern_steering]
    exact Word.fitsAny_of_mem hop hmem

theorem goesOn_of_unsupported (hop : Opcode.ofWord? w = none) : m.GoesOn w (m.core.regs.pc + 2) := by
  have hno : ∀ k : Opcode, ¬ w.Fits k.pattern := Word.not_fits_of_unsupported hop
  constructor
  case jump =>
    rintro ⟨p, hp, hw⟩
    obtain rfl | rfl : p = "1nnn" ∨ p = "2nnn" := by simpa using hp
    · exact absurd hw (hno .jp)
    · exact absurd hw (hno .call)
  case offset => exact fun hw => absurd hw (hno .jpV0)
  case ret => exact fun hw => absurd hw (hno .ret)
  case wait => exact fun hw => absurd hw (hno .ldVxK)
  case eqByte => exact fun hw => absurd hw (hno .seByte)
  case neByte => exact fun hw => absurd hw (hno .sneByte)
  case eqReg => exact fun hw => absurd hw (hno .seReg)
  case neReg => exact fun hw => absurd hw (hno .sneReg)
  case pressed => exact fun hw => absurd hw (hno .skp)
  case released => exact fun hw => absurd hw (hno .sknp)
  case other => exact fun _ => rfl

/-- **The law of the program counter.** A step that does not fault has fetched a word, and goes on where
that word says; on a frame buffer a key that does not exist is not pressed. -/
theorem step_program_counter :
    (∀ {σ : Type} [Surface σ] (m : Machine σ), m.step.fault? = none →
      ∃ w, m.core.fetch = .ok w ∧ m.GoesOn w m.step.machine.core.regs.pc) ∧
    ∀ {width height : Nat} (fb : FrameBuffer width height) (index : Byte), 15 < index.toNat →
      Surface.ask fb (.key index) = .ok (false, fb) := by
  constructor
  · intro σ _ m h
    obtain ⟨w, hfetch, ⟨hop, hstep⟩ | ⟨op, hop, hyields⟩⟩ := step_of_no_fault h
    · rw [hstep]
      exact ⟨w, hfetch, goesOn_of_unsupported hop⟩
    · exact ⟨w, hfetch, goesOn_of_executed hfetch hop h hyields⟩
  · intro width height fb index hindex
    have hnone : Keypad.key? index.toInt = none := by
      unfold Keypad.key? Byte.toInt
      exact dif_neg (by omega)
    show Except.ok (fb.keys.isHeld index.toInt, fb) = _
    unfold Keypad.isHeld
    rw [hnone]

/-- V0 is set to 10, and the next word skips unless key 10 is pressed; all keys that exist are. -/
def absentKey : Machine (FrameBuffer 8 4) :=
  after ⟨(ofImage [0x60, 0x10, 0xE0, 0xA1]).core, { keys := ⟨.replicate 16 true⟩ }⟩ 1

theorem absentKey_skips :
    absentKey.step.fault? = none ∧ 15 < (absentKey.core.regs.get 0).toNat ∧
    absentKey.step.machine.core.regs.pc = 0x206 := by
  have hfault : absentKey.step.fault? = none := by decide +kernel
  have hkey : 15 < (absentKey.core.regs.get 0).toNat := by decide +kernel
  have hfetch : absentKey.core.fetch = .ok 0xE0A1 := Core.fetch_eq_ok_iff.mpr (by decide +kernel)
  obtain ⟨hlaw, habsent⟩ := step_program_counter
  obtain ⟨w, hw, hgoes⟩ := hlaw absentKey hfault
  obtain rfl : 0xE0A1 = w := Except.ok.inj (hfetch.symm.trans hw)
  obtain ⟨held, next, hask, hpc⟩ := hgoes.released (by decide)
  obtain ⟨rfl, -⟩ := Prod.mk.inj (Except.ok.inj ((habsent absentKey.surface _ hkey).symm.trans hask))
  exact ⟨hfault, hkey, hpc.trans (by decide +kernel)⟩

end Machine

end Chip8
