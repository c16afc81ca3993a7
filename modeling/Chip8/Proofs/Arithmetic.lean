import Chip8.Proofs.Alu
import Chip8.Proofs.Patterns
import Chip8.Proofs.Step

/-!
# Arithmetic on registers

An arithmetic instruction takes its operands before it writes, then writes the flag to VF and the result
to Vx, in this order. So the operands are those of the state before, also where one of them is VF, and
where the result goes to VF the flag is lost. What is computed is said by equations between the operands,
the result and the flag (`Word.Computes`); over a byte and a bit each of them has one solution.

* `Machine.computes_of_exec`, `Machine.gives_of_exec` — one instruction, with and without a flag
* `Machine.arithmetic_exact` — all of them
-/

namespace Chip8

/-! ## What is computed -/

/-- The word computes the result `r` and the flag `f` from the operands `a` and `b`. -/
inductive Word.Computes (w : Word) (a b r f : Int) : Prop
  | sum (hw : w.Fits "8xy4") (h : r + 256 * f = a + b)
  | difference (hw : w.Fits "8xy5") (h : r = a - b + 256 * (1 - f))
  | reversed (hw : w.Fits "8xy7") (h : r = b - a + 256 * (1 - f))
  | half (hw : w.Fits "8xy6") (h : a = 2 * r + f)
  | double (hw : w.Fits "8xyE") (h : 2 * a = r + 256 * f)

/-- The word gives the result `r` from the operands `a` and `b`, or from `a` and its own last byte, and no
flag. -/
inductive Word.Gives (w : Word) (a b r : Nat) : Prop
  | copy (hw : w.Fits "8xy0") (h : r = b)
  | or (hw : w.Fits "8xy1") (h : r = a ||| b)
  | and (hw : w.Fits "8xy2") (h : r = a &&& b)
  | xor (hw : w.Fits "8xy3") (h : r = a ^^^ b)
  | sum (hw : w.Fits "7xkk") (h : r = (a + w.kk.toNat) % 256)

/-! ## Where it goes -/

namespace Registers

/-- All registers but some byte registers and PC are as they were. -/
structure SameBut (before after : Registers) (written : List Nibble) : Prop where
  v : ∀ z ∉ written, after.get z = before.get z
  i : after.i = before.i
  calls : after.calls = before.calls

/-- The register `x` takes a result and VF its flag, unless it is `x` itself. -/
structure TakesFlagged (before after : Registers) (x : Nibble) (r f : Int) : Prop where
  result : (after.get x).toInt = r
  flag : x ≠ 0xF → (after.get 0xF).toInt = f
  others : before.SameBut after [x, 0xF]

/-- The register `x` takes a result, and VF is as it was unless it is `x`. -/
structure Takes (before after : Registers) (x : Nibble) (r : Nat) : Prop where
  result : (after.get x).toNat = r
  others : before.SameBut after [x]

end Registers

theorem Core.takesFlagged_setFlagged (c : Core) (x : Nibble) {r : Alu.Flagged}
    (hr : Alu.IsByte r.result) :
    c.regs.TakesFlagged (c.setFlagged x r).next.regs x r.result r.flag.toInt where
  result := by
    show (((c.regs.set _ _).set x (Byte.ofInt r.result)).get x).toInt = r.result
    rw [Registers.get_set_self]
    exact Alu.toInt_ofInt_of_isByte hr
  flag hx := by
    show (((c.regs.set Registers.flagIndex (if r.flag then 1 else 0)).set x _).get 0xF).toInt = _
    -- the result is put last, but not into VF
    rw [Registers.get_set_of_ne (Ne.symm hx), Registers.flagIndex, Registers.get_set_self]
    cases r.flag <;> rfl
  others := by
    refine ⟨fun z hz => ?_, rfl, rfl⟩
    obtain ⟨hx, hflag⟩ : z ≠ x ∧ z ≠ Registers.flagIndex := by
      simpa [Registers.flagIndex] using hz
    exact (Registers.get_set_of_ne hx).trans (Registers.get_set_of_ne hflag)

theorem Core.takes_set (c : Core) (x : Nibble) (b : Byte) :
    c.regs.Takes (c.set x b).next.regs x b.toNat where
  result := congrArg UInt8.toNat (Registers.get_set_self _ x b)
  others := ⟨fun _ hz => Registers.get_set_of_ne (List.ne_of_not_mem_cons hz), rfl, rfl⟩

namespace Machine

variable {σ : Type} [Surface σ] {m : Machine σ} {w : Word} {op : Opcode}

theorem computes_of_exec (hfetch : m.core.fetch = .ok w) (hop : Opcode.ofWord? w = some op)
    {r : Alu.Flagged} (hexec : op.exec w m.core.tick = .ok (.done (m.core.tick.setFlagged w.x r).next []))
    {a b : Int} (hr : Alu.IsByte r.result) (h : w.Computes a b r.result r.flag.toInt) :
    m.step.fault? = none ∧ ∃ r f, Alu.IsByte r ∧ (f = 0 ∨ f = 1) ∧ w.Computes a b r f ∧
      m.core.regs.TakesFlagged m.step.machine.core.regs w.x r f := by
  obtain ⟨hfault, hstep⟩ := step_of_done hfetch hop hexec
  have hbit : r.flag.toInt = 0 ∨ r.flag.toInt = 1 := by cases r.flag <;> decide
  rw [hstep]
  exact ⟨hfault, _, _, hr, hbit, h, m.core.tick.takesFlagged_setFlagged w.x hr⟩

theorem gives_of_exec (hfetch : m.core.fetch = .ok w) (hop : Opcode.ofWord? w = some op) {v : Byte}
    (hexec : op.exec w m.core.tick = .ok (.done (m.core.tick.set w.x v).next [])) {a b : Nat}
    (h : w.Gives a b v.toNat) :
    m.step.fault? = none ∧ ∃ r, w.Gives a b r ∧
      m.core.regs.Takes m.step.machine.core.regs w.x r := by
  obtain ⟨hfault, hstep⟩ := step_of_done hfetch hop hexec
  rw [hstep]
  exact ⟨hfault, _, h, m.core.tick.takes_set w.x v⟩

/-- **Arithmetic is exact under every choice of registers.** A step on an arithmetic word does not fault;
its result and its flag solve the equation of the word for the operands as they were before the step, and
the registers take them; the words without a flag leave VF alone unless it is their result. -/
theorem arithmetic_exact (hfetch : m.core.fetch = .ok w) :
    let a := m.core.regs.get w.x
    let b := m.core.regs.get w.y
    (w.FitsAny ["8xy4", "8xy5", "8xy7", "8xy6", "8xyE"] → m.step.fault? = none ∧
      ∃ r f, Alu.IsByte r ∧ (f = 0 ∨ f = 1) ∧ w.Computes a.toInt b.toInt r f ∧
        m.core.regs.TakesFlagged m.step.machine.core.regs w.x r f) ∧
    (w.FitsAny ["8xy0", "8xy1", "8xy2", "8xy3", "7xkk"] → m.step.fault? = none ∧
      ∃ r, w.Gives a.toNat b.toNat r ∧ m.core.regs.Takes m.step.machine.core.regs w.x r) := by
  intro a b
  have ha : Alu.IsByte a.toInt := Alu.isByte_toInt a
  have hb : Alu.IsByte b.toInt := Alu.isByte_toInt b
  have hop : ∀ op : Opcode, w.Fits op.pattern → Opcode.ofWord? w = some op := fun op =>
    (Word.fits_pattern_iff op).mp
  constructor
  · have hfits := Alu.fits_of_isByte ha b.toInt
    rintro ⟨p, hp, hw⟩
    obtain rfl | rfl | rfl | rfl | rfl :
        p = "8xy4" ∨ p = "8xy5" ∨ p = "8xy7" ∨ p = "8xy6" ∨ p = "8xyE" := by simpa using hp
    · exact computes_of_exec hfetch (hop .addReg hw) rfl hfits.add8 (.sum hw (Alu.add8_exact ha hb))
    · exact computes_of_exec hfetch (hop .sub hw) rfl hfits.sub8
        (.difference hw (Alu.sub8_exact ha hb))
    · exact computes_of_exec hfetch (hop .subn hw) rfl (Alu.fits_of_isByte hb a.toInt).sub8
        (.reversed hw (Alu.sub8_exact hb ha))
    · exact computes_of_exec hfetch (hop .shr hw) rfl hfits.shr8 (.half hw (Alu.shr8_eq a.toInt))
    · exact computes_of_exec hfetch (hop .shl hw) rfl hfits.shl8 (.double hw (Alu.shl8_exact ha))
  · rintro ⟨p, hp, hw⟩
    obtain rfl | rfl | rfl | rfl | rfl :
        p = "8xy0" ∨ p = "8xy1" ∨ p = "8xy2" ∨ p = "8xy3" ∨ p = "7xkk" := by simpa using hp
    · exact gives_of_exec hfetch (hop .ldReg hw) rfl (.copy hw rfl)
    · exact gives_of_exec hfetch (hop .or hw) rfl (.or hw (UInt8.toNat_or a b))
    · exact gives_of_exec hfetch (hop .and hw) rfl (.and hw (UInt8.toNat_and a b))
    · exact gives_of_exec hfetch (hop .xor hw) rfl (.xor hw (UInt8.toNat_xor a b))
    · exact gives_of_exec hfetch (hop .addByte hw) rfl (.sum hw (Byte.toNat_ofInt_addWrapping a w.kk))

/-- VF is 3 and V0 is 5, and the next word takes V0 from VF. -/
def flagMinusFive : Machine Detached := after (ofImage [0x6F, 0x03, 0x60, 0x05, 0x8F, 0x05]) 2

theorem flagMinusFive_exact :
    flagMinusFive.core.fetch = .ok 0x8F05 ∧
    (flagMinusFive.step.machine.core.regs.get 0xF).toInt = 254 ∧
    flagMinusFive.step.machine.core.regs.get 0 = 5 := by
  have hfetch : flagMinusFive.core.fetch = .ok 0x8F05 := Core.fetch_eq_ok_iff.mpr (by decide +kernel)
  obtain ⟨_, r, f, hr, hf, hcomputes, htakes⟩ :=
    (arithmetic_exact hfetch).1 ⟨"8xy5", by decide, by decide⟩
  refine ⟨hfetch, htakes.result.trans ?_, (htakes.others.v 0 (by decide)).trans (by decide +kernel)⟩
  obtain ⟨ha, hb⟩ : (flagMinusFive.core.regs.get (Word.x 0x8F05)).toInt = 3 ∧
      (flagMinusFive.core.regs.get (Word.y 0x8F05)).toInt = 5 := by decide +kernel
  unfold Alu.IsByte at hr
  cases hcomputes with
  | difference _ h => omega
  | sum hw | reversed hw | half hw | double hw => exact absurd hw (by decide)

end Machine

end Chip8
