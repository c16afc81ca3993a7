import Chip8.Proofs.Bounds
import Chip8.Proofs.Drawing
import Chip8.Proofs.Patterns
import Chip8.Proofs.Requests

/-!
# A drawing that is drawn again

Programs erase a sprite by drawing it once more. A drawing changes VF and nothing else that a drawing
reads, so when the same word comes next and takes no coordinate from VF, it flips the same cells
(`Machine.drawnCells`) and the screen is as before. The two answers together tell whether there was
anything to draw: a sprite with a set bit collides with the screen or with itself.

* `Machine.drew_of_step` — a step that draws
* `Machine.redrawn_of_draws` — two steps on one drawing word
* `Session.redraw_erases` — in every state that a host can reach
-/

namespace Chip8

/-! ## Sprites of bytes -/

theorem Byte.eq_zero_of_testBit {b : Byte} (h : ∀ i < 8, b.toNat.testBit i = false) : b = 0 := by
  refine UInt8.toNat_inj.mp (Nat.eq_of_testBit_eq fun i => Eq.trans ?_ (Nat.zero_testBit i).symm)
  by_cases hi : i < 8
  · exact h i hi
  · -- a byte has no bits from the ninth on
    exact Nat.testBit_lt_two_pow
      (Nat.lt_of_lt_of_le b.toNat_lt (Nat.pow_le_pow_right (by decide) (Nat.le_of_not_lt hi)))

namespace Sprite

theorem bit_toInt (b : Byte) (j : Nat) : bit b.toInt j = b.toNat.testBit (7 - j) := by
  rw [Bool.eq_iff_iff, bit_eq_true_iff, Nat.testBit_eq_decide_div_mod_eq, decide_eq_true_iff]
  unfold Byte.toInt
  norm_cast

/-- A row without a set bit is zero. -/
theorem rowPoints_eq_nil_iff (x y : Int) (b : Byte) : rowPoints x y b.toInt = [] ↔ b = 0 := by
  unfold rowPoints
  rw [List.map_eq_nil_iff, List.filter_eq_nil_iff]
  constructor
  · refine fun h => Byte.eq_zero_of_testBit fun i hi => ?_
    have hbit := h (7 - i) (List.mem_range.mpr (by unfold width; omega))
    rw [bit_toInt, Nat.sub_sub_self (Nat.le_of_lt_succ hi)] at hbit
    exact Bool.eq_false_iff.mpr hbit
  · rintro rfl j _
    rw [bit_toInt]
    simp

theorem points_eq_nil_iff (x : Int) (bytes : List Byte) : ∀ y : Int,
    points x y (bytes.map Byte.toInt) = [] ↔ ∀ b ∈ bytes, b = 0 := by
  induction bytes with
  | nil => simp [points]
  | cons b bytes ih =>
    intro y
    rw [List.map_cons, points, List.append_eq_nil_iff, rowPoints_eq_nil_iff, ih,
      List.forall_mem_cons]

end Sprite

/-! ## Steps that draw -/

namespace Machine

variable {width height : Nat}

/-- The cells that a drawing word flips, in order. -/
def drawnCells (hw : 0 < width) (hh : 0 < height) (m : Machine (FrameBuffer width height)) (w : Word) :
    List (Screen.Cell width height) :=
  Screen.cells hw hh (m.core.regs.get w.x).toInt (m.core.regs.get w.y).toInt
    ((m.core.memory.block m.core.regs.i.toNat w.n).map Byte.toInt)

theorem drawnCells_ne_nil_iff (hw : 0 < width) (hh : 0 < height)
    (m : Machine (FrameBuffer width height)) (w : Word) :
    m.drawnCells hw hh w ≠ [] ↔
      ∃ k < w.n.val, m.core.memory.byte (m.core.regs.i.toNat + k) ≠ 0 := by
  unfold drawnCells Screen.cells Memory.block
  rw [Ne, List.map_eq_nil_iff, Sprite.points_eq_nil_iff, List.range'_eq_map_range]
  simp

/-- What a drawing that flips some cells makes of a machine. Timers and steps are left open. -/
structure Drew (m next : Machine (FrameBuffer width height)) (cs : List (Screen.Cell width height)) :
    Prop where
  screen : next.surface.screen = (m.surface.screen.flipAll cs).screen
  keys : next.surface.keys = m.surface.keys
  v : ∀ z, z ≠ 0xF → next.core.regs.get z = m.core.regs.get z
  flag : next.core.regs.get 0xF = 1 ↔ (m.surface.screen.flipAll cs).collided = true
  i : next.core.regs.i = m.core.regs.i
  calls : next.core.regs.calls = m.core.regs.calls
  memory : next.core.memory = m.core.memory
  pc : next.core.regs.pc = m.core.regs.pc + 2

/-- A drawing word flips its cells, puts the answer into VF and goes on. -/
theorem drew_of_step (hw : 0 < width) (hh : 0 < height) {m : Machine (FrameBuffer width height)}
    {w : Word} (hfetch : m.core.fetch = .ok w) (hop : Opcode.ofWord? w = some .drw)
    (hin : Memory.InRange m.core.regs.i w.n) :
    m.step.fault? = none ∧ m.Drew m.step.machine (m.drawnCells hw hh w) := by
  let drawn := m.surface.screen.flipAll (m.drawnCells hw hh w)
  have hask : Surface.ask m.surface (.draw (m.core.regs.get w.x) (m.core.regs.get w.y)
      (m.core.memory.block m.core.regs.i.toNat w.n)) =
      .ok (drawn.collided, { m.surface with screen := drawn.screen }) :=
    FrameBuffer.draw_eq_ok hw hh _ _ _ _
  obtain ⟨hfault, hstep⟩ :=
    step_of_answer hfetch hop (Opcode.exec_draw (c := m.core.tick) hin) hask
  rw [hstep]
  refine ⟨hfault, rfl, rfl, fun z hz => Registers.get_set_of_ne hz, ?_, rfl, rfl, rfl, rfl⟩
  show (m.core.regs.set Registers.flagIndex (if drawn.collided then 1 else 0)).get 0xF = 1 ↔
    drawn.collided = true
  rw [Registers.flagIndex, Registers.get_set_self]
  cases drawn.collided <;> decide

/-! ## Two drawings -/

/-- Two steps that draw the sprite of the word `w` leave a machine as it was, but for VF and for PC,
which has moved past both words. -/
structure Redrawn (m : Machine (FrameBuffer width height)) (w : Word) : Prop where
  steps : m.step.fault? = none ∧ (m.after 1).step.fault? = none
  screen : (m.after 2).surface.screen = m.surface.screen
  keys : (m.after 2).surface.keys = m.surface.keys
  v : ∀ z, z ≠ 0xF → (m.after 2).core.regs.get z = m.core.regs.get z
  i : (m.after 2).core.regs.i = m.core.regs.i
  calls : (m.after 2).core.regs.calls = m.core.regs.calls
  memory : (m.after 2).core.memory = m.core.memory
  pc : (m.after 2).core.regs.pc = m.core.regs.pc + 4
  /-- The two answers together tell whether the sprite has a set bit. -/
  collision : ((m.after 1).core.regs.get 0xF = 1 ∨ (m.after 2).core.regs.get 0xF = 1) ↔
    ∃ k < w.n.val, m.core.memory.byte (m.core.regs.i.toNat + k) ≠ 0

/-- A drawing that takes no coordinate from VF leaves all that it reads, so the same word next draws the
same cells. -/
theorem Drew.drawnCells_eq {hw : 0 < width} {hh : 0 < height}
    {m next : Machine (FrameBuffer width height)} {cs : List (Screen.Cell width height)} {w : Word}
    (h : m.Drew next cs) (hx : w.x ≠ 0xF) (hy : w.y ≠ 0xF) :
    next.drawnCells hw hh w = m.drawnCells hw hh w := by
  unfold drawnCells
  rw [h.v w.x hx, h.v w.y hy, h.memory, h.i]

theorem redrawn_of_draws (hw : 0 < width) (hh : 0 < height) {m : Machine (FrameBuffer width height)}
    {w : Word} (hfetch : m.core.fetch = .ok w)
    (hnext : m.core.memory.read16 (m.core.regs.pc + 2) = .ok w) (hop : Opcode.ofWord? w = some .drw)
    (hx : w.x ≠ 0xF) (hy : w.y ≠ 0xF) (hin : Memory.InRange m.core.regs.i w.n) : m.Redrawn w := by
  let mid := m.step.machine
  obtain ⟨hfault, hfirst⟩ : m.step.fault? = none ∧ m.Drew mid (m.drawnCells hw hh w) :=
    drew_of_step hw hh hfetch hop hin
  have hfetch' : mid.core.fetch = .ok w := by
    unfold Core.fetch
    rw [hfirst.memory, hfirst.pc]
    exact hnext
  obtain ⟨hfault', hsecond⟩ :=
    drew_of_step hw hh hfetch' hop (hfirst.i ▸ hin)
  rw [hfirst.drawnCells_eq hx hy] at hsecond
  constructor
  case steps => exact ⟨hfault, hfault'⟩
  case screen => exact (hsecond.screen.trans (by rw [hfirst.screen])).trans (Screen.flipAll_flipAll _ _)
  case keys => exact hsecond.keys.trans hfirst.keys
  case v => exact fun z hz => (hsecond.v z hz).trans (hfirst.v z hz)
  case i => exact hsecond.i.trans hfirst.i
  case calls => exact hsecond.calls.trans hfirst.calls
  case memory => exact hsecond.memory.trans hfirst.memory
  case pc =>
    refine hsecond.pc.trans ?_
    rw [hfirst.pc, Int.add_assoc]
    rfl
  case collision =>
    have htwice := Screen.collided_twice_iff (m.drawnCells hw hh w) m.surface.screen
    rw [← drawnCells_ne_nil_iff hw hh, ← htwice, ← hfirst.screen]
    exact or_congr hfirst.flag hsecond.flag

end Machine

namespace Session

/-- **A sprite drawn twice is erased.** In whatever state a host has brought a machine to, on a frame
buffer with cells: if the next two words are one drawing that takes no coordinate from VF, and its rows
lie inside memory, then two steps put the screen back. -/
theorem redraw_erases {width height : Nat} (hw : 0 < width) (hh : 0 < height)
    {surface : FrameBuffer width height} {random : RandomSource} {image : List Byte} {threshold : Int}
    {s : Session (FrameBuffer width height)} (h : create surface random image threshold = .ok s)
    (ops : List Operation) :
    let m := (s.applyAll ops).1.machine
    ∀ w : Word, m.core.fetch = .ok w → m.core.memory.read16 (m.core.regs.pc + 2) = .ok w →
      w.Fits "Dxyn" → w.x ≠ 0xF → w.y ≠ 0xF → m.core.regs.i + w.n ≤ 0x1000 → m.Redrawn w := by
  intro m w hfetch hnext hw' hx hy hend
  have hbounded : m.core.regs.Bounded := Registers.bounded_kept.reached h ops
  have hin : Memory.InRange m.core.regs.i w.n := ⟨hbounded.i.1, Int.natCast_nonneg _, hend⟩
  exact Machine.redrawn_of_draws hw hh hfetch hnext ((Word.fits_pattern_iff .drw).mp hw') hx hy hin

/-- On a screen three cells wide a row of a sprite wraps onto itself: glyph 0 is drawn over one lit
cell, twice. -/
theorem redraw_erases_of_wrapped_glyph :
    0 < 3 ∧ 0 < 2 ∧
    ∃ s, create ({ screen := Screen.dark.flip (2, 1) } : FrameBuffer 3 2) (.cycle #[])
        [0xD0, 0x15, 0xD0, 0x15] 10 = .ok s ∧
      let m := (s.applyAll [.press 4]).1.machine
      m.core.fetch = .ok 0xD015 ∧ m.core.memory.read16 (m.core.regs.pc + 2) = .ok 0xD015 ∧
      (m.after 2).surface.screen = m.surface.screen ∧ (m.after 2).core.regs.pc = 0x204 ∧
      ((m.after 1).core.regs.get 0xF = 1 ∨ (m.after 2).core.regs.get 0xF = 1) := by
  have hcreate : create ({ screen := Screen.dark.flip (2, 1) } : FrameBuffer 3 2) (.cycle #[])
      [0xD0, 0x15, 0xD0, 0x15] 10 = .ok _ := rfl
  refine ⟨by decide, by decide, _, hcreate, ?_⟩
  intro m
  have hfetch : m.core.fetch = .ok 0xD015 := Core.fetch_eq_ok_iff.mpr (by decide +kernel)
  have hnext : m.core.memory.read16 (m.core.regs.pc + 2) = .ok 0xD015 := by decide +kernel
  have hredrawn : m.Redrawn 0xD015 := redraw_erases (by decide) (by decide) hcreate [.press 4] 0xD015
    hfetch hnext (by decide) (by decide) (by decide) (by decide +kernel)
  refine ⟨hfetch, hnext, hredrawn.screen, hredrawn.pc.trans (by decide +kernel), ?_⟩
  exact hredrawn.collision.mpr ⟨0, by decide, by decide +kernel⟩

end Session

end Chip8
