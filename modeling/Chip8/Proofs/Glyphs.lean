import Chip8.Proofs.Patterns
import Chip8.Proofs.Requests
import Chip8.Proofs.Sessions
import Chip8.Surface.Recorder

/-!
# The glyphs stay

The font is laid down at power-on and again at a reset, and no store, load or step writes over it
(`Memory.hasFont_kept`). So in every state that a host can reach, a drawing of five rows from a glyph's
address hands the surface that glyph (`Session.glyphs_never_change`).
-/

namespace Chip8

namespace Memory

variable {m m' : Memory}

/-- The font stands at the bottom of memory. -/
def HasFont (m : Memory) : Prop := m.block 0 Font.size = Font.table

theorem HasFont.congr (hm : m.HasFont) (h : ∀ k < 80, m'.byte k = m.byte k) : m'.HasFont := by
  refine Eq.trans (block_congr fun k hk => h k ?_) hm
  have hlt := (List.mem_range'_1.mp hk).2
  rwa [Nat.zero_add] at hlt

theorem HasFont.getElem?_table (hm : m.HasFont) {k : Nat} (hk : k < 0x50) :
    Font.table[k]? = some (m.byte k) := by
  have hblock := m.getElem?_block 0 (show k < Font.size from hk)
  rwa [hm, Nat.zero_add] at hblock

theorem hasFont_loadFont (m : Memory) : m.loadFont.HasFont := by
  unfold HasFont loadFont block
  apply List.ext_getElem
  · rw [List.length_map, List.length_range', Font.length_table]
  · intro k _ hk
    rw [List.getElem_map, List.getElem_range', Nat.one_mul, Nat.zero_add,
      byte_overlay Font.table m 0 k (by decide), if_pos (by omega), Nat.sub_zero,
      List.getElem?_eq_getElem hk, Option.getD_some]

theorem HasFont.loadProgram (hm : m.HasFont) {image : List Byte}
    (h : m.loadProgram image = .ok m') : m'.HasFont := by
  unfold Memory.loadProgram at h
  split at h
  · next hfits =>
    cases h
    refine hm.congr fun k hk => ?_
    have hend : programStart + image.length ≤ 4096 := by
      unfold programStart maxProgramSize at *
      omega
    rw [byte_overlay image m programStart k hend, if_neg]
    unfold programStart
    omega
  · cases h

theorem HasFont.writeBlock (hm : m.HasFont) {address : Int} {data : List Byte} {stored : Stored}
    (h : m.writeBlock address data = .ok stored) : stored.memory.HasFont := by
  refine hm.congr fun k hk => ?_
  rw [byte_writeBlock h, if_neg (by omega)]

/-- Five rows from a glyph's address are that glyph. -/
theorem HasFont.block_glyph (hm : m.HasFont) (digit : Nibble) :
    m.block (5 * digit) 5 = Font.glyph digit := by
  have hdigit := digit.isLt
  have hinside : 5 * digit.val + 5 ≤ Font.size := by
    unfold Font.size
    omega
  have hblock := take_drop_block m 0 hinside
  rw [hm, Nat.zero_add] at hblock
  exact hblock.symm

end Memory

/-- All that a host can do to a core leaves it with its font. -/
theorem Memory.hasFont_kept : Core.Kept fun c => c.memory.HasFont where
  powerOn _ := Memory.hasFont_loadFont _
  step h hstep := by
    rcases hstep.memory_cases with hsame | ⟨_, _, _, _, _, _, _, hstored, hnext⟩
    · rwa [hsame]
    · rw [hnext]
      exact h.writeBlock hstored
  reset _ := Memory.hasFont_loadFont _
  load h hload := h.loadProgram hload
  store h hstored := h.writeBlock hstored
  setTimers _ h := h

theorem Word.fits_draw_five {w : Word} (h : w.Fits "Dxy5") : w.Fits "Dxyn" ∧ w.n = 5 := by
  obtain ⟨hgroup, hx, hy, hn⟩ := (fits_iff rfl).mp h
  refine ⟨(fits_iff rfl).mpr ⟨hgroup, hx, hy, rfl⟩, Fin.ext ?_⟩
  exact (Option.some.inj ((Opcode.placeAccepts_iff (by decide)).mp hn)).symm

namespace Session

variable {σ : Type} [Surface σ] [Keyed σ]

/-- **The glyphs never change.** Whatever program a machine was created with, and whatever a host has
done to it since, the font stands at the bottom of memory; and a step that draws five rows with the
index register at the address of digit `d` asks the surface for the glyph of `d`, and leaves the
surface as that request does. -/
theorem glyphs_never_change {surface : σ} {random : RandomSource} {image : List Byte}
    {threshold : Int} {s : Session σ} (h : create surface random image threshold = .ok s)
    (ops : List Operation) :
    let m := (s.applyAll ops).1.machine
    m.core.memory.block 0 Font.size = Font.table ∧
    ∀ (w : Word) (d : Nibble), m.core.fetch = .ok w → w.Fits "Dxy5" → m.core.regs.i = 5 * d.val →
      let drawing := Request.draw (m.core.regs.get w.x) (m.core.regs.get w.y) (Font.glyph d)
      m.core.request? = some drawing ∧
      m.step.machine.surface = Surface.answered m.surface drawing := by
  intro m
  have hfont : m.core.memory.HasFont := Memory.hasFont_kept.reached h ops
  refine ⟨hfont, ?_⟩
  intro w d hfetch hw hi drawing
  have hd := d.isLt
  obtain ⟨hdraw, hn⟩ := Word.fits_draw_five hw
  have hin : Memory.InRange m.core.regs.i w.n := by
    rw [hn, hi]
    unfold Memory.InRange
    refine ⟨?_, ?_, ?_⟩ <;> omega
  have hrequest : m.core.request? = some drawing := by
    rw [Core.request?_draw hfetch (Opcode.ofWord?_eq_some_iff_matches.mpr hdraw) hin, hn, hi]
    exact congrArg (fun rows => some (Request.draw _ _ rows)) (hfont.block_glyph d)
  refine ⟨hrequest, ?_⟩
  rw [Machine.step_surface, hrequest]
  rfl

/-- The host stores over the end of the font and into glyph 1, the program stores over glyph 0. The next
word draws glyph 1. -/
theorem glyphs_after_stores :
    ∃ s, create (⟨none, false, #[]⟩ : Recorder) (.cycle #[]) [0xF4, 0x55, 0xD0, 0x15] 10 = .ok s ∧
      let m := (s.applyAll [.poke 0x4E [1, 2, 3], .pokeByte 5 9, .step]).1.machine
      m.core.memory.byte 0x50 = 3 ∧ m.core.memory.block 0 Font.size = Font.table ∧
      m.core.request? = some (.draw 0 0 [0x20, 0x60, 0x20, 0x20, 0x70]) := by
  have hcreate : create (⟨none, false, #[]⟩ : Recorder) (.cycle #[])
      [0xF4, 0x55, 0xD0, 0x15] 10 = .ok _ := rfl
  refine ⟨_, hcreate, ?_⟩
  obtain ⟨hfont, hglyph⟩ :=
    glyphs_never_change hcreate [.poke 0x4E [1, 2, 3], .pokeByte 5 9, .step]
  have hrequest := (hglyph 0xD015 1 (Core.fetch_eq_ok_iff.mpr (by decide +kernel))
    (by decide +kernel) (by decide +kernel)).1
  exact ⟨by decide +kernel, hfont, hrequest.trans (by decide +kernel)⟩

end Session

end Chip8
