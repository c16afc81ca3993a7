import Chip8.Proofs.Alu
import Chip8.Proofs.CallStack
import Chip8.Proofs.Footprint
import Chip8.Proofs.Sessions

/-!
# The ranges of a machine's numbers

Byte registers, timers and memory hold bytes, and the call stack holds sixteen words, by their types.
The index register, the program counter and the addresses on the stack are kept in range by the
instructions, and each by way of the others: a return reads PC from the stack, a call puts PC there,
and a call is only executed where it could be fetched. So the three bounds go together
(`Registers.Bounded`).

* `Registers.Bounded.stepsTo` — every step keeps them
* `Registers.bounded_kept` — all that a host can do keeps them
* `Session.numbers_in_range` — so they hold of whatever a host can reach

The types hide two questions. A result that did not fit would be cut to its low byte on the way into a
register; `Core.InRange.results` says that this does not happen. And bytes laid over others would lose
those that stand past the end; but they always take the place of as many as they are, of registers
(`Core.toList_load_readIndexed`), of the font (`Memory.toList_loadFont`) and of programs
(`Memory.toList_loadProgram`).
-/

namespace Chip8

/-! ## Registers -/

/-- The bounds that the instructions keep. -/
structure Registers.Bounded (r : Registers) : Prop where
  i : 0 ≤ r.i ∧ r.i ≤ 0xFFFF
  pc : 0 ≤ r.pc ∧ r.pc ≤ 0x10FE
  slots : ∀ k, (r.calls.slot k).toNat ≤ 0xFFE

theorem Registers.bounded_powerOn : Registers.Bounded {} where
  i := by decide
  pc := by decide
  slots := by
    intro k
    rw [CallStack.slot_empty]
    decide

/-- Moving past a block reduces the index register. -/
theorem Core.i_advanceIndex_bounded (c : Core) (count : Nat) :
    0 ≤ (c.advanceIndex count).next.regs.i ∧ (c.advanceIndex count).next.regs.i ≤ 0xFFFF := by
  show 0 ≤ (c.regs.i + count) % 65536 ∧ (c.regs.i + count) % 65536 ≤ 0xFFFF
  omega

theorem Core.pc_skipIf_bounded (c : Core) (condition : Bool)
    (hpc : 0 ≤ c.regs.pc ∧ c.regs.pc ≤ 0xFFE) :
    0 ≤ (c.skipIf condition).regs.pc ∧ (c.skipIf condition).regs.pc ≤ 0x10FE := by
  show 0 ≤ c.regs.pc + (if condition then 4 else 2) ∧
    c.regs.pc + (if condition then 4 else 2) ≤ 0x10FE
  split <;> omega

namespace Opcode

variable {op : Opcode} {w : Word} {c next : Core}

/-- The index register is set to an address, to a glyph's address or to a reduced sum. -/
theorem Yields.i_bounded (h : op.Yields w c next) (hi : 0 ≤ c.regs.i ∧ c.regs.i ≤ 0xFFFF) :
    0 ≤ next.regs.i ∧ next.regs.i ≤ 0xFFFF := by
  have hframe := h.frame
  cases op with
  | ldI =>
    refine h.of_ensures ?_
    show 0 ≤ (w.nnn : Int) ∧ (w.nnn : Int) ≤ 0xFFFF
    have hnnn := w.nnn_lt
    omega
  | addIVx =>
    refine h.of_ensures ?_
    show 0 ≤ (c.regs.i + (c.regs.get w.x).toInt) % 65536 ∧ _ % 65536 ≤ 0xFFFF
    omega
  | ldFVx =>
    refine h.of_ensures ?_
    show 0 ≤ Font.address (c.regs.get w.x).toInt ∧ Font.address (c.regs.get w.x).toInt ≤ 0xFFFF
    obtain ⟨hlow, hhigh⟩ := Alu.isByte_toInt (c.regs.get w.x)
    unfold Font.address Font.glyphSize
    omega
  | ldMemVx =>
    exact h.of_ensures (ensures_writeIndexed fun _ => Core.i_advanceIndex_bounded _ _)
  | ldVxMem =>
    exact h.of_ensures (ensures_readIndexed fun _ => Core.i_advanceIndex_bounded _ _)
  -- the others leave the index register
  | _ =>
    rw [hframe.i (by decide)]
    exact hi

/-- PC moves by at most two words, jumps to an address plus a byte, or returns to the instruction
after an address from the stack. -/
theorem Yields.pc_bounded (h : op.Yields w c next) (hpc : 0 ≤ c.regs.pc ∧ c.regs.pc ≤ 0xFFE)
    (hslots : ∀ k, (c.regs.calls.slot k).toNat ≤ 0xFFE) :
    0 ≤ next.regs.pc ∧ next.regs.pc ≤ 0x10FE := by
  have hframe := h.frame
  have hnnn := w.nnn_lt
  cases op with
  | jp =>
    refine h.of_ensures ?_
    show 0 ≤ (w.nnn : Int) ∧ (w.nnn : Int) ≤ 0x10FE
    omega
  | call =>
    refine h.of_ensures (ensures_call fun _ _ => ?_)
    show 0 ≤ (w.nnn : Int) ∧ (w.nnn : Int) ≤ 0x10FE
    omega
  | jpV0 =>
    refine h.of_ensures ?_
    show 0 ≤ (w.nnn : Int) + (c.regs.get Registers.offsetIndex).toInt ∧
      (w.nnn : Int) + (c.regs.get Registers.offsetIndex).toInt ≤ 0x10FE
    obtain ⟨hlow, hhigh⟩ := Alu.isByte_toInt (c.regs.get Registers.offsetIndex)
    omega
  | ret =>
    refine h.of_ensures (ensures_ret fun caller calls hpop => ?_)
    show 0 ≤ (caller.toNat : Int) + 2 ∧ (caller.toNat : Int) + 2 ≤ 0x10FE
    obtain ⟨k, rfl⟩ := CallStack.exists_slot_eq_popped hpop
    have hk := hslots k
    omega
  | seByte | sneByte | seReg | sneReg => exact h.of_ensures (Core.pc_skipIf_bounded _ _ hpc)
  | skp | sknp => exact h.of_ensures fun _ => Core.pc_skipIf_bounded _ _ hpc
  | ldVxK =>
    refine h.of_ensures ?_
    rintro (_ | key)
    · show 0 ≤ c.regs.pc ∧ c.regs.pc ≤ 0x10FE
      omega
    · show 0 ≤ c.regs.pc + 2 ∧ c.regs.pc + 2 ≤ 0x10FE
      omega
  | _ =>
    rw [hframe.pc rfl]
    omega

/-- The call stack gets no address but that of a call which was fetched. -/
theorem Yields.slots_bounded (h : op.Yields w c next) (hpc : 0 ≤ c.regs.pc ∧ c.regs.pc ≤ 0xFFE)
    (hslots : ∀ k, (c.regs.calls.slot k).toNat ≤ 0xFFE) (k : Nibble) :
    (next.regs.calls.slot k).toNat ≤ 0xFFE := by
  have hframe := h.frame
  cases op with
  | call =>
    refine h.of_ensures (ensures_call fun calls hpush => ?_)
    show (calls.slot k).toNat ≤ 0xFFE
    rw [CallStack.slot_push hpush]
    split
    · -- PC is fetched from, so its low sixteen bits are all of it
      have hword := Word.toNat_ofInt c.regs.pc
      omega
    · exact hslots k
  | ret =>
    refine h.of_ensures (ensures_ret fun caller calls hpop => ?_)
    show (calls.slot k).toNat ≤ 0xFFE
    rw [CallStack.slot_pop hpop]
    exact hslots k
  | _ =>
    rw [hframe.calls (by decide)]
    exact hslots k

end Opcode

/-- Every step keeps the bounds. -/
theorem Registers.Bounded.stepsTo {c next : Core} (hb : c.regs.Bounded) (h : c.StepsTo next) :
    next.regs.Bounded := by
  cases h with
  | faulted => exact ⟨hb.i, hb.pc, hb.slots⟩
  | skipped hfetch hop =>
    have hpc := (Core.fetch_eq_ok_iff.mp hfetch).1
    refine ⟨hb.i, ?_, hb.slots⟩
    show 0 ≤ c.regs.pc + 2 ∧ c.regs.pc + 2 ≤ 0x10FE
    omega
  | executed hfetch hop h =>
    -- each bound of the next state may rest on all bounds of this one
    have hpc := (Core.fetch_eq_ok_iff.mp hfetch).1
    exact ⟨h.i_bounded hb.i, h.pc_bounded hpc hb.slots, h.slots_bounded hpc hb.slots⟩

/-! ## Sessions -/

/-- All that a host can do to a core keeps the bounds. -/
theorem Registers.bounded_kept : Core.Kept fun c => c.regs.Bounded where
  powerOn _ := bounded_powerOn
  step h hstep := h.stepsTo hstep
  reset _ := bounded_powerOn
  load _ _ := bounded_powerOn
  store h _ := h
  setTimers _ h := h

namespace Session

variable {σ : Type} {s : Session σ}

theorem applyAll_bounded [Surface σ] [Keyed σ] (ops : List Operation) :
    ∀ {s : Session σ}, s.machine.core.regs.Bounded →
      (s.applyAll ops).1.machine.core.regs.Bounded :=
  Registers.bounded_kept.applyAll ops

theorem create_bounded {surface : σ} {random : RandomSource} {image : List Byte}
    {threshold : Int} (h : create surface random image threshold = .ok s) :
    s.machine.core.regs.Bounded :=
  Registers.bounded_kept.create h

end Session

/-! ## Bytes laid over others -/

theorem Memory.getElem?_toList (m : Memory) (k : Nat) :
    m.bytes.toList[k]? = if k < 4096 then some (m.byte k) else none := by
  unfold byte
  rw [Vector.getElem?_toList]
  by_cases hk : k < 4096
  · rw [if_pos hk, Vector.getElem?_eq_getElem hk, Option.getD_some]
  · rw [if_neg hk, Vector.getElem?_eq_none (Nat.le_of_not_lt hk)]

/-- Bytes that end inside memory take the place of as many. -/
theorem Memory.toList_overlay {m : Memory} {start : Nat} {bs : List Byte}
    (h : start + bs.length ≤ 4096) :
    (m.overlay start bs).bytes.toList =
      m.bytes.toList.take start ++ bs ++ m.bytes.toList.drop (start + bs.length) := by
  have hstart : (m.bytes.toList.take start).length = start := by
    rw [List.length_take, Vector.length_toList]
    omega
  apply List.ext_getElem?
  intro k
  rw [getElem?_toList, byte_overlay bs m start k h, List.append_assoc]
  by_cases hbefore : k < start
  · rw [if_neg (show ¬ (start ≤ k ∧ k < start + bs.length) by omega),
      List.getElem?_append_left (by omega), List.getElem?_take_of_lt hbefore, getElem?_toList]
  · rw [List.getElem?_append_right (by omega), hstart]
    by_cases hin : k < start + bs.length
    · rw [if_pos (by omega), if_pos (by omega), List.getElem?_append_left (by omega),
        List.getElem?_eq_getElem (by omega), Option.getD_some]
    · rw [if_neg (show ¬ (start ≤ k ∧ k < start + bs.length) by omega),
        List.getElem?_append_right (by omega), List.getElem?_drop, getElem?_toList,
        show start + bs.length + (k - start - bs.length) = k by omega]

/-- The font takes the place of the first bytes. -/
theorem Memory.toList_loadFont (m : Memory) :
    m.loadFont.bytes.toList = Font.table ++ m.bytes.toList.drop Font.table.length := by
  unfold loadFont
  rw [toList_overlay (by decide), Nat.zero_add, List.take_zero, List.nil_append]

/-- A program that loads takes the place of as many bytes. -/
theorem Memory.toList_loadProgram {m next : Memory} {image : List Byte}
    (h : m.loadProgram image = .ok next) :
    next.bytes.toList =
      m.bytes.toList.take 0x200 ++ image ++ m.bytes.toList.drop (0x200 + image.length) := by
  unfold loadProgram maxProgramSize at h
  split at h
  · cases h
    exact toList_overlay (by unfold programStart; omega)
  · cases h

theorem Registers.toList_load {r : Registers} {data : List Byte} (h : data.length ≤ 16) :
    (r.load data).v.toList = data ++ r.v.toList.drop data.length := by
  apply List.ext_getElem?
  intro k
  unfold load
  rw [Vector.getElem?_toList, Vector.getElem?_ofFn]
  by_cases hk : k < 16
  · rw [dif_pos hk]
    by_cases hin : k < data.length
    · rw [List.getElem?_append_left hin, List.getElem?_eq_getElem hin, Option.getD_some]
    · rw [List.getElem?_append_right (by omega), List.getElem?_drop, Vector.getElem?_toList,
        show data.length + (k - data.length) = k by omega, Vector.getElem?_eq_getElem hk,
        List.getElem?_eq_none (show data.length ≤ k by omega), Option.getD_none]
      rfl
  · rw [dif_neg hk, List.getElem?_append_right (by omega), List.getElem?_drop,
      Vector.getElem?_toList, Vector.getElem?_eq_none (by omega)]

theorem Core.length_of_readIndexed {c : Core} {count : Nat} {data : List Byte}
    (h : c.readIndexed count = .ok data) : data.length = count := by
  unfold readIndexed Memory.readBlock at h
  by_cases hin : Memory.InRange c.regs.i count
  · rw [if_pos hin] at h
    cases h
    rw [Memory.length_block, Int.toNat_natCast]
  · rw [if_neg hin] at h
    cases h

/-- A block that is loaded from memory takes the place of just the registers that are asked for. -/
theorem Core.toList_load_readIndexed {c : Core} {x : Nibble} {data : List Byte}
    (h : c.readIndexed (x + 1) = .ok data) :
    data.length = x + 1 ∧ (c.regs.load data).v.toList = data ++ c.regs.v.toList.drop (x + 1) := by
  have hx := x.isLt
  have hlength := length_of_readIndexed h
  have hload : (c.regs.load data).v.toList = data ++ c.regs.v.toList.drop data.length :=
    Registers.toList_load (by omega)
  rw [hlength] at hload
  exact ⟨hlength, hload⟩

/-! ## All numbers -/

/-- The ranges of all numbers in a core, and of what arithmetic would put into its registers next. -/
structure Core.InRange (c : Core) : Prop where
  v : c.regs.v.toList.length = 16 ∧ ∀ b ∈ c.regs.v.toList, b.toNat ≤ 0xFF
  i : 0 ≤ c.regs.i ∧ c.regs.i ≤ 0xFFFF
  pc : 0 ≤ c.regs.pc ∧ c.regs.pc ≤ 0x10FE
  depth : c.regs.calls.depth.val ≤ 16
  slots : c.regs.calls.slots.toList.length = 16 ∧
    ∀ a ∈ c.regs.calls.slots.toList, a.toNat ≤ 0xFFE
  timers : c.timers.delay.toNat ≤ 0xFF ∧ c.timers.sound.toNat ≤ 0xFF
  memory : c.memory.bytes.toList.length = 4096 ∧ ∀ b ∈ c.memory.bytes.toList, b.toNat ≤ 0xFF
  results : ∀ x y, Alu.Fits (c.regs.get x).toInt (c.regs.get y).toInt

theorem Byte.toNat_le (b : Byte) : b.toNat ≤ 0xFF := Nat.le_of_lt_succ b.toNat_lt

theorem Core.inRange_of_bounded {c : Core} (h : c.regs.Bounded) : c.InRange where
  v := ⟨Vector.length_toList, fun b _ => b.toNat_le⟩
  i := h.i
  pc := h.pc
  depth := Nat.le_of_lt_succ c.regs.calls.depth.isLt
  slots := by
    refine ⟨Vector.length_toList, ?_⟩
    intro a ha
    obtain ⟨k, hk, rfl⟩ := List.getElem_of_mem ha
    rw [Vector.length_toList] at hk
    exact h.slots ⟨k, hk⟩
  timers := ⟨c.timers.delay.toNat_le, c.timers.sound.toNat_le⟩
  memory := ⟨Vector.length_toList, fun b _ => b.toNat_le⟩
  results := fun x y => Alu.fits_of_isByte (Alu.isByte_toInt _) _

/-- **Every number of a machine stays in its range.** Whatever program a machine was created with,
and whatever a host has done to it since, on any surface and with any random source. -/
theorem Session.numbers_in_range {σ : Type} [Surface σ] [Keyed σ] {surface : σ}
    {random : RandomSource} {image : List Byte} {threshold : Int} {s : Session σ}
    (h : create surface random image threshold = .ok s) (ops : List Operation) :
    (s.applyAll ops).1.machine.core.InRange :=
  Core.inRange_of_bounded (applyAll_bounded ops (create_bounded h))

/-- A host that answers with key -1 puts 255 into V0; the jump past FFF by V0 reaches the last PC. -/
theorem Session.numbers_in_range_of_far_jump :
    ∃ s, create (⟨some (-1), false, #[]⟩ : Recorder) (.cycle #[]) [0xF0, 0x0A, 0xBF, 0xFF] 10 = .ok s ∧
      (s.applyAll [.step, .run 3, .press 7]).1.machine.core.regs.pc = 0x10FE ∧
      (s.applyAll [.step, .run 3, .press 7]).1.machine.core.InRange := by
  have hcreate : create (⟨some (-1), false, #[]⟩ : Recorder) (.cycle #[])
      [0xF0, 0x0A, 0xBF, 0xFF] 10 = .ok _ := rfl
  exact ⟨_, hcreate, by decide +kernel, numbers_in_range hcreate _⟩

end Chip8
