import Chip8.Proofs.Bounds
import Chip8.Proofs.Effects
import Chip8.Proofs.Glyphs
import Mathlib.Control.Monad.Basic

/-!
# Saved registers

One instruction stores the registers from V0 up at the index register, another fills them from there.
Between the two a program may do as it likes, as long as it stores nothing at the addresses of the
block: then each register comes back as it was saved, and where the block lies in the font, as the font
has it.

* `Machine.saved_of_step`, `Machine.loaded_of_step` — what the two instructions leave
* `Machine.Spares.byte_after` — a byte that is spared stays
* `Session.saved_registers_reload` — from the save to the reload
-/

namespace Chip8

/-! ## The two instructions -/

namespace Core

/-- The registers up to `x` have been saved at `b`, but for the places in the font. -/
structure Saved (c next : Core) (b : Nat) (x : Nibble) : Prop where
  registers : ∀ z ≤ x, 0x50 ≤ b + z.val → next.memory.byte (b + z) = c.regs.get z
  font : ∀ k < 0x50, next.memory.byte k = c.memory.byte k
  index : next.regs.i = b + x + 1

/-- The registers up to `x` have been filled from `b` on. -/
structure Loaded (c next : Core) (b : Nat) (x : Nibble) : Prop where
  filled : ∀ z ≤ x, next.regs.get z = c.memory.byte (b + z)
  others : ∀ z, x < z → next.regs.get z = c.regs.get z
  index : next.regs.i = b + x + 1

/-- Past a block inside memory the index register is not reduced. -/
theorem i_next_advanceIndex (c : Core) {b : Nat} {x : Nibble} (hi : c.regs.i = b)
    (h : b + x.val ≤ 0xFFF) :
    (c.advanceIndex (x + 1)).next.regs.i = b + x + 1 := by
  show (c.regs.i + (x + 1 : Nat)) % 65536 = b + x + 1
  omega

end Core

namespace Opcode

variable {c : Core} {w : Word} {b : Nat}

theorem exec_save (hi : c.regs.i = b) (h : b + w.x.val ≤ 0xFFF) :
    ∃ next dropped, exec .ldMemVx w c = .ok (.done next dropped) ∧ c.Saved next b w.x := by
  have hlength := c.regs.length_upTo w.x
  have hin : Memory.InRange c.regs.i (c.regs.upTo w.x).length := by
    unfold Memory.InRange
    omega
  let stored := c.memory.storeBytes c.regs.i.toNat (c.regs.upTo w.x)
  have hstored : c.memory.writeBlock c.regs.i (c.regs.upTo w.x) = .ok stored :=
    Memory.writeBlock_eq_ok_iff.mpr ⟨hin, rfl⟩
  refine ⟨(({ c with memory := stored.memory } : Core).advanceIndex (w.x + 1)).next,
    stored.dropped, ?_, ?_⟩
  · unfold exec Core.writeIndexed
    rw [hstored]
    rfl
  constructor
  case registers =>
    intro z hz hfont
    have hle : z.val ≤ w.x.val := hz
    show stored.memory.byte (b + z) = _
    rw [Memory.byte_writeBlock hstored, if_pos (by omega), hi, Int.toNat_natCast,
      Nat.add_sub_cancel_left, Registers.getElem?_upTo hz, Option.getD_some]
  case font =>
    intro k hk
    show stored.memory.byte k = _
    rw [Memory.byte_writeBlock hstored, if_neg (by omega)]
  case index => exact Core.i_next_advanceIndex _ hi h

theorem exec_load (hi : c.regs.i = b) (h : b + w.x.val ≤ 0xFFF) :
    ∃ next, exec .ldVxMem w c = .ok (.done next []) ∧ c.Loaded next b w.x := by
  have hin : Memory.InRange c.regs.i (w.x + 1 : Nat) := by
    unfold Memory.InRange
    omega
  let data := c.memory.block b (w.x + 1)
  refine ⟨(({ c with regs := c.regs.load data } : Core).advanceIndex (w.x + 1)).next, ?_, ?_⟩
  · unfold exec Core.readIndexed Memory.readBlock
    rw [if_pos hin, hi]
    rfl
  constructor
  case filled =>
    intro z hz
    rw [Core.get_next_advanceIndex, Registers.get_load,
      Memory.getElem?_block _ _ (Nat.lt_succ_of_le hz), Option.getD_some]
  case others =>
    intro z hz
    rw [Core.get_next_advanceIndex]
    refine Registers.get_load_of_length_le ?_
    rw [Memory.length_block]
    exact hz
  case index => exact Core.i_next_advanceIndex _ ((c.regs.i_load data).trans hi) h

end Opcode

/-! ## Steps -/

namespace Machine

variable {σ : Type} [Surface σ] {m : Machine σ} {w : Word} {b : Nat}

theorem saved_of_step (hfetch : m.core.fetch = .ok w) (hw : w.Fits "Fx55") (hi : m.core.regs.i = b)
    (h : b + w.x.val ≤ 0xFFF) :
    m.step.fault? = none ∧ m.core.Saved m.step.machine.core b w.x := by
  obtain ⟨next, dropped, hexec, hsaved⟩ := Opcode.exec_save (c := m.core.tick) hi h
  obtain ⟨hfault, hstep⟩ := step_of_done hfetch ((Word.fits_pattern_iff .ldMemVx).mp hw) hexec
  rw [hstep]
  exact ⟨hfault, hsaved.registers, hsaved.font, hsaved.index⟩

theorem loaded_of_step (hfetch : m.core.fetch = .ok w) (hw : w.Fits "Fx65") (hi : m.core.regs.i = b)
    (h : b + w.x.val ≤ 0xFFF) :
    m.step.fault? = none ∧ m.core.Loaded m.step.machine.core b w.x := by
  obtain ⟨next, hexec, hloaded⟩ := Opcode.exec_load (c := m.core.tick) hi h
  obtain ⟨hfault, hstep⟩ := step_of_done hfetch ((Word.fits_pattern_iff .ldVxMem).mp hw) hexec
  rw [hstep]
  exact ⟨hfault, hloaded.filled, hloaded.others, hloaded.index⟩

/-- The next `n` steps store nothing at the addresses from `first` to `last`. -/
def Spares (m : Machine σ) (n : Nat) (first last : Int) : Prop :=
  ∀ k < n, (m.after k).step.fault? = none → ∀ w, (m.after k).core.fetch = .ok w →
    ∀ a : Nat, first ≤ a → a ≤ last → ¬ w.Stores (m.after k).core.regs.i a

theorem Spares.byte_after {first last : Int} {a : Nat} (hfirst : first ≤ a) (hlast : a ≤ last) :
    ∀ {n : Nat}, m.Spares n first last →
      (m.after n).core.memory.byte a = m.core.memory.byte a := by
  intro n
  induction n with
  | zero => exact fun _ => rfl
  | succ n ih =>
    intro h
    have hstep := byte_step fun hfault w hfetch =>
      h n (Nat.lt_succ_self n) hfault w hfetch a hfirst hlast
    exact hstep.trans (ih fun k hk => h k (Nat.lt_succ_of_lt hk))

end Machine

/-! ## From a save to its reload -/

/-- The step from `c` to `next` has brought back the registers up to `x` that were saved at `b`. -/
structure Core.Reloaded (saved c next : Core) (b : Int) (x : Nibble) : Prop where
  registers : ∀ z ≤ x, 0x50 ≤ b + z → next.regs.get z = saved.regs.get z
  font : ∀ z ≤ x, b + z < 0x50 → Font.table[(b + z).toNat]? = some (next.regs.get z)
  others : ∀ z, x < z → next.regs.get z = c.regs.get z
  index : next.regs.i = b + x + 1

theorem Core.Saved.reloaded {saved start c next : Core} {b : Nat} {x : Nibble}
    (hsaved : saved.Saved start b x) (hfont : saved.memory.HasFont)
    (hkept : ∀ z ≤ x, c.memory.byte (b + z) = start.memory.byte (b + z))
    (hloaded : c.Loaded next b x) : saved.Reloaded c next b x where
  registers z hz hin := by
    rw [hloaded.filled z hz, hkept z hz]
    exact hsaved.registers z hz (by omega)
  font z hz hlow := by
    have hlt : b + z.val < 0x50 := by omega
    rw [hloaded.filled z hz, hkept z hz, hsaved.font _ hlt]
    exact hfont.getElem?_table hlt
  others := hloaded.others
  index := hloaded.index

namespace Session

variable {σ : Type} [Surface σ] [Keyed σ]

/-- **Registers come back as they were saved.** In whatever state a host has brought a machine to: if
the next word saves registers to a block inside memory, that step does not fault; and after any number
of steps that spare the block, a word that loads as many registers from the same address brings back
the registers saved, or the font where the block lies in it, and leaves the others. Both move the
index register just past the block. -/
theorem saved_registers_reload {surface : σ} {random : RandomSource} {image : List Byte}
    {threshold : Int} {s : Session σ} (h : create surface random image threshold = .ok s)
    (ops : List Operation) :
    let m := (s.applyAll ops).1.machine
    let b := m.core.regs.i
    ∀ save : Word, m.core.fetch = .ok save → save.Fits "Fx55" → b + save.x ≤ 0xFFF →
      m.step.fault? = none ∧ m.step.machine.core.regs.i = b + save.x + 1 ∧
      b + save.x + 1 ≤ 0x1000 ∧
      ∀ (n : Nat) (reload : Word), m.step.machine.Spares n b (b + save.x) →
        let last := m.step.machine.after n
        last.core.fetch = .ok reload → reload.Fits "Fx65" → reload.x = save.x →
        last.core.regs.i = b →
        last.step.fault? = none ∧ m.core.Reloaded last.core last.step.machine.core b save.x := by
  intro m b save hfetch hsave hend
  have hfont : m.core.memory.HasFont := Memory.hasFont_kept.reached h ops
  have hbounded : m.core.regs.Bounded := Registers.bounded_kept.reached h ops
  obtain ⟨start, hstart : b = start⟩ := Int.eq_ofNat_of_zero_le hbounded.i.1
  rw [hstart] at hend ⊢
  have hfits : start + save.x.val ≤ 0xFFF := by omega
  obtain ⟨hfault, hsaved⟩ := Machine.saved_of_step hfetch hsave hstart hfits
  refine ⟨hfault, hsaved.index, by omega, ?_⟩
  intro n reload hspares last hfetch' hreload hx hi
  rw [← hx] at hsaved hspares hfits ⊢
  obtain ⟨hfault', hloaded⟩ := Machine.loaded_of_step hfetch' hreload hi hfits
  refine ⟨hfault', hsaved.reloaded hfont ?_ hloaded⟩
  intro z hz
  have hle : z.val ≤ reload.x.val := hz
  exact hspares.byte_after (by omega) (by omega)

/-- V0 to V3 are saved from 4E on, half of them into the font. Then V3 becomes 9, and its digits are
stored just past the block, before the registers are loaded again. -/
def savesAcrossFontEnd : Session Recorder :=
  let image : List Byte :=
    [0x63, 0x07, 0xA0, 0x4E, 0xF3, 0x55, 0x63, 0x09, 0xF3, 0x33, 0xA0, 0x4E, 0xF3, 0x65]
  let memory := Memory.zeroed.loadFont.overlay Memory.programStart image
  ⟨⟨{ memory := memory, random := .cycle #[] }, ⟨none, false, #[]⟩⟩, ⟨10, #[.loaded image.length]⟩⟩

theorem savesAcrossFontEnd_reloads :
    (∃ image, create ⟨none, false, #[]⟩ (.cycle #[]) image 10 = .ok savesAcrossFontEnd) ∧
    let m := (savesAcrossFontEnd.applyAll [.run 2]).1.machine
    m.core.regs.i = 0x4E ∧ m.step.machine.Spares 3 0x4E 0x51 ∧
    (m.step.machine.after 3).core.regs.get 3 = 9 ∧
    Font.table[0x4E]? = some ((m.step.machine.after 3).step.machine.core.regs.get 0) ∧
    (m.step.machine.after 3).step.machine.core.regs.get 3 = 7 := by
  have hcreate : create ⟨none, false, #[]⟩ (.cycle #[])
      [0x63, 0x07, 0xA0, 0x4E, 0xF3, 0x55, 0x63, 0x09, 0xF3, 0x33, 0xA0, 0x4E, 0xF3, 0x65] 10 =
    .ok savesAcrossFontEnd := rfl
  refine ⟨⟨_, hcreate⟩, ?_⟩
  intro m
  obtain ⟨⟨hi, hv3, hfetch⟩, hpast, hi', hv3', hfetch'⟩ :
      (m.core.regs.i = 0x4E ∧ m.core.regs.get 3 = 7 ∧ m.core.fetch = .ok 0xF355) ∧
      (∀ k < 3, (m.step.machine.after k).core.regs.i = 0x52) ∧
      (m.step.machine.after 3).core.regs.i = 0x4E ∧
      (m.step.machine.after 3).core.regs.get 3 = 9 ∧
      (m.step.machine.after 3).core.fetch = .ok 0xF365 := by
    decide +kernel
  have hspares : m.step.machine.Spares 3 0x4E 0x51 := by
    intro k hk _ w _ a _ hlast hstores
    -- the save leaves the index register past the block, where it stays until it is set again
    have hik := hpast k hk
    rcases hstores with ⟨_, hrange⟩ | ⟨_, hrange⟩ <;> omega
  have hlaw := saved_registers_reload hcreate [.run 2]
  have hm : (savesAcrossFontEnd.applyAll [.run 2]).1.machine = m := rfl
  simp only [hm, hi] at hlaw
  obtain ⟨_, _, _, hreload⟩ := hlaw 0xF355 hfetch (by decide) (by decide)
  obtain ⟨_, hback⟩ := hreload 3 0xF365 hspares hfetch' (by decide) (by decide) hi'
  refine ⟨hi, hspares, hv3', ?_, ?_⟩
  · exact hback.font 0 (by decide) (by decide)
  · exact (hback.registers 3 (by decide) (by decide)).trans hv3

end Session

end Chip8
