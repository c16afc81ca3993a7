import Chip8.Proofs.Glyphs
import Chip8.Proofs.Loading
import Chip8.Proofs.LogThreshold

/-!
# A reset leaves no residue

A reset keeps the memory, the surface and the random source. The font is written again, but it has been
there all the time (`Memory.HasFont.loadFont_eq`); so a reset machine is one that was just created,
except for the bytes in its memory, and no operation after the reset can tell it from that one.

* `Session.apply_reset` — what a reset leaves
* `Session.reset_leaves_no_residue` — everything that comes after it
-/

namespace Chip8

/-- Where the font stands, writing it again changes nothing. -/
theorem Memory.HasFont.loadFont_eq {m : Memory} (h : m.HasFont) : m.loadFont = m := by
  apply Memory.ext_byte
  intro k _
  unfold loadFont
  rw [byte_overlay Font.table m 0 k (by decide)]
  split
  · next hk =>
    rw [Nat.zero_add, Font.length_table] at hk
    rw [Nat.sub_zero, h.getElem?_table hk.2, Option.getD_some]
  · rfl

theorem Core.reset_eq {c : Core} (h : c.memory.HasFont) :
    c.reset = { Core.powerOn c.random with memory := c.memory } := by
  unfold reset
  rw [h.loadFont_eq]
  rfl

namespace Session

variable {σ : Type} [Surface σ] [Keyed σ] {s : Session σ}

theorem apply_reset (h : s.machine.core.memory.HasFont) :
    s.apply .reset =
      (s.withCore { Core.powerOn s.machine.core.random with memory := s.machine.core.memory }, .done) := by
  rw [← Core.reset_eq h]
  rfl

/-- Two sessions with one machine and one threshold go on alike. -/
theorem goes_on_alike {s s' : Session σ} (hmachine : s.machine = s'.machine)
    (hthreshold : s.log.threshold = s'.log.threshold) (more : List Operation) :
    s.machines more = s'.machines more ∧ (s.applyAll more).2 = (s'.applyAll more).2 ∧
    ∃ records, (s.applyAll more).1.log.records.toList = s.log.records.toList ++ records ∧
      (s'.applyAll more).1.log.records.toList = s'.log.records.toList ++ records := by
  obtain ⟨m, log⟩ := s
  obtain ⟨m', log'⟩ := s'
  obtain rfl : m = m' := hmachine
  obtain ⟨seen, next, records, answers, hmore⟩ := exists_applyAll_eq more m
  obtain ⟨hseen, hleft⟩ := hmore log
  obtain ⟨hseen', hleft'⟩ := hmore log'
  rw [hseen, hseen', hleft, hleft']
  refine ⟨rfl, rfl, records.filter (Record.passes log.threshold), Log.toList_addAll records log, ?_⟩
  rw [show log.threshold = log'.threshold from hthreshold]
  exact Log.toList_addAll records log'

/-- **A reset leaves no residue.** In every state that a host can reach, a reset succeeds, logs nothing
and keeps all bytes of memory. It leaves the machine that would be created without an image on the
surface and the random source of that state, but for the bytes of its memory. Whatever is done next, both
have the same machines, answers and records. A second reset changes nothing. -/
theorem reset_leaves_no_residue {surface : σ} {random : RandomSource} {image : List Byte}
    {threshold : Int} {created : Session σ} (h : create surface random image threshold = .ok created)
    (ops : List Operation) :
    let s := (created.applyAll ops).1
    let left := (s.apply .reset).1
    (s.apply .reset).2 = .done ∧ left.log = s.log ∧
    (∀ k, left.machine.core.memory.byte k = s.machine.core.memory.byte k) ∧
    (∃ fresh, create s.machine.surface s.machine.core.random [] s.log.threshold = .ok fresh ∧
      let anew := fresh.withCore { fresh.machine.core with memory := s.machine.core.memory }
      left.machine = anew.machine ∧
      ∀ more, left.machines more = anew.machines more ∧
        (left.applyAll more).2 = (anew.applyAll more).2 ∧
        (left.applyAll more).1.log.records.toList =
          s.log.records.toList ++ (anew.applyAll more).1.log.records.toList) ∧
    left.apply .reset = (left, .done) := by
  intro s left
  have hfont : s.machine.core.memory.HasFont := Memory.hasFont_kept.reached h ops
  have hreset := apply_reset hfont
  have hleft : left = s.withCore { Core.powerOn s.machine.core.random with
      memory := s.machine.core.memory } := congrArg Prod.fst hreset
  refine ⟨congrArg Prod.snd hreset, by rw [hleft]; rfl, fun k => by rw [hleft]; rfl,
    ⟨_, create_nil _ _ _, ?_⟩, ?_⟩
  · intro anew
    have hmachine : left.machine = anew.machine := by
      rw [hleft]
      rfl
    refine ⟨hmachine, fun more => ?_⟩
    have hthreshold : left.log.threshold = anew.log.threshold := by
      rw [hleft]
      rfl
    obtain ⟨hmachines, hanswers, records, hrecords, hrecords'⟩ :=
      goes_on_alike hmachine hthreshold more
    refine ⟨hmachines, hanswers, ?_⟩
    rw [hrecords, hrecords', hleft]
    rfl
  · have hfont' : left.machine.core.memory.HasFont := by
      rw [hleft]
      exact hfont
    rw [apply_reset hfont', hleft]
    rfl

/-- A program that sets a register and the delay timer and calls a subroutine is reset while a key is
held. -/
theorem reset_of_running :
    ∃ created, create ({} : FrameBuffer 64 32) (.cycle #[]) [0x6A, 0x42, 0xFA, 0x15, 0x23, 0x00] 20 =
        .ok created ∧
      let s := (created.applyAll [.press 5, .run 3]).1
      let left := (s.apply .reset).1
      (s.machine.core.regs.get 0xA = 0x42 ∧ s.machine.core.timers.delay = 0x41 ∧
        s.machine.core.regs.calls.depth = 1) ∧
      left.log.records = #[.loaded 6] ∧ left.machine.core.memory.byte 0x201 = 0x42 ∧
      left.apply .reset = (left, .done) ∧
      ∃ fresh, create s.machine.surface s.machine.core.random [] s.log.threshold = .ok fresh ∧
        left.machines [.step, .release 5, .run 9] = (fresh.withCore { fresh.machine.core with
          memory := s.machine.core.memory }).machines [.step, .release 5, .run 9] := by
  have hcreate : create ({} : FrameBuffer 64 32) (.cycle #[])
      [0x6A, 0x42, 0xFA, 0x15, 0x23, 0x00] 20 = .ok _ := rfl
  refine ⟨_, hcreate, ?_⟩
  obtain ⟨-, hlog, hbyte, ⟨fresh, hfresh, -, hmore⟩, htwice⟩ :=
    reset_leaves_no_residue hcreate [.press 5, .run 3]
  refine ⟨by decide +kernel, ?_, ?_, htwice, fresh, hfresh, (hmore [.step, .release 5, .run 9]).1⟩
  · rw [hlog]
    decide +kernel
  · rw [hbyte]
    decide +kernel

end Session

end Chip8
