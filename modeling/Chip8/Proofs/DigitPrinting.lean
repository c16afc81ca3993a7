import Chip8.Proofs.SavedRegisters

/-!
# Printing a number in decimal

Four words print one decimal digit of a register: the first stores its digits at the index register, the
second loads them into V0 to V2, the third points the index register at the glyph of one of them and the
fourth draws it. The block of the digits must not lie over the words that are still to come. Each of the
first three steps leaves what the next one needs (`Core.StoredDigits`, `Core.Loaded`, `Core.PointsAt`),
and the glyph is there because the font never changes.

* `Machine.storedDigits_of_step`, `Machine.pointsAt_of_step` — what single steps leave
* `Machine.loadsDigits_of_atDigitPrinting`, `Machine.drawsDigit_of_fetch` — two steps and two steps
* `Machine.printsDigit_of_atDigitPrinting` — the four steps
* `Session.decimal_digits_printed` — in every state that a host can reach
-/

namespace Chip8

/-! ## Digits -/

/-- The first three registers hold the decimal digits of a number, hundreds first. -/
structure Registers.HoldDigits (r : Registers) (n : Nat) : Prop where
  hundreds : (r.get 0).toNat ≤ 9
  tens : (r.get 1).toNat ≤ 9
  units : (r.get 2).toNat ≤ 9
  number : 100 * (r.get 0).toNat + 10 * (r.get 1).toNat + (r.get 2).toNat = n

theorem Registers.HoldDigits.le_nine {r : Registers} {n : Nat} (h : r.HoldDigits n) {z : Nibble}
    (hz : z ≤ 2) : (r.get z).toNat ≤ 9 := by
  have hthree : ∀ z : Nibble, z ≤ 2 → z = 0 ∨ z = 1 ∨ z = 2 := by decide
  rcases hthree z hz with rfl | rfl | rfl
  · exact h.hundreds
  · exact h.tens
  · exact h.units

theorem Byte.toNat_decimalDigits (b : Byte) :
    b.decimalDigits.map UInt8.toNat = [b.toNat / 100, b.toNat / 10 % 10, b.toNat % 10] := by
  have hdigits := b.toInt_decimalDigits
  unfold decimalDigits at hdigits ⊢
  simp only [List.map_cons, List.map_nil, List.cons.injEq, and_true, Alu.bcd, toInt] at hdigits ⊢
  omega

theorem Registers.holdDigits_of_eq {r : Registers} {b : Byte}
    (h : ∀ z : Nibble, z ≤ 2 → b.decimalDigits[z.val]? = some (r.get z)) : r.HoldDigits b.toNat := by
  have hb := b.toNat_lt
  have hdigit : ∀ z : Nibble, z ≤ 2 →
      [b.toNat / 100, b.toNat / 10 % 10, b.toNat % 10][z.val]? = some (r.get z).toNat := by
    intro z hz
    rw [← b.toNat_decimalDigits, List.getElem?_map, h z hz, Option.map_some]
  have hhundreds : b.toNat / 100 = (r.get 0).toNat := Option.some.inj (hdigit 0 (by decide))
  have htens : b.toNat / 10 % 10 = (r.get 1).toNat := Option.some.inj (hdigit 1 (by decide))
  have hunits : b.toNat % 10 = (r.get 2).toNat := Option.some.inj (hdigit 2 (by decide))
  constructor <;> omega

/-! ## Reading words -/

/-- A word reads the same where its two bytes are the same. -/
theorem Memory.read16_congr {m m' : Memory} {a : Int} {w : Word} (h : m.read16 a = .ok w)
    (hbytes : ∀ k : Nat, a ≤ k → k ≤ a + 1 → m'.byte k = m.byte k) : m'.read16 a = .ok w := by
  unfold read16 at h ⊢
  split at h
  · next hin =>
    have hlow : 0 ≤ a := hin.1
    rw [if_pos hin, hbytes _ (by omega) (by omega), hbytes _ (by omega) (by omega)]
    exact h
  · cases h

/-! ## Steps -/

namespace Core

/-- The decimal digits of the register `x` have been stored at `b`. -/
structure StoredDigits (c next : Core) (b : Nat) (x : Nibble) : Prop where
  digits : ∀ k < 3, (c.regs.get x).decimalDigits[k]? = some (next.memory.byte (b + k))
  others : ∀ k : Nat, k < b ∨ b + 2 < k → next.memory.byte k = c.memory.byte k
  index : next.regs.i = c.regs.i

/-- The index register has been put at the glyph of the register `x`. -/
structure PointsAt (c next : Core) (x : Nibble) : Prop where
  v : ∀ z, next.regs.get z = c.regs.get z
  index : next.regs.i = 5 * (c.regs.get x).toNat
  memory : next.memory = c.memory

/-- The program counter is at four words that print a digit: one stores the digits of a register, one
loads V0 to V2, one puts the index register at the glyph of one of these, and one draws five rows. The
digits fit into memory past the font, and not over the last three words. -/
structure AtDigitPrinting (c : Core) (store point draw : Word) : Prop where
  fetch : c.fetch = .ok store
  load : c.memory.read16 (c.regs.pc + 2) = .ok 0xF265
  third : c.memory.read16 (c.regs.pc + 4) = .ok point
  fourth : c.memory.read16 (c.regs.pc + 6) = .ok draw
  stores : store.Fits "Fx33"
  points : point.Fits "Fx29"
  draws : draw.Fits "Dxy5"
  digit : point.x ≤ 2
  low : 0x50 ≤ c.regs.i
  high : c.regs.i ≤ 0xFFD
  apart : c.regs.i + 2 < c.regs.pc + 2 ∨ c.regs.pc + 7 < c.regs.i

/-- Five rows from the address of a glyph are that glyph. -/
theorem request?_glyph {c : Core} {w : Word} {d : Nibble} (hfont : c.memory.HasFont)
    (hfetch : c.fetch = .ok w) (hw : w.Fits "Dxy5") (hi : c.regs.i = 5 * d.val) :
    c.request? = some (.draw (c.regs.get w.x) (c.regs.get w.y) (Font.glyph d)) := by
  have hd := d.isLt
  obtain ⟨hdraw, hn⟩ := Word.fits_draw_five hw
  have hin : Memory.InRange c.regs.i w.n := by
    rw [hn, hi]
    unfold Memory.InRange
    refine ⟨?_, ?_, ?_⟩ <;> omega
  rw [request?_draw hfetch ((Word.fits_pattern_iff .drw).mp hdraw) hin, hn, hi]
  exact congrArg (fun rows => some (Request.draw _ _ rows)) (hfont.block_glyph d)

end Core

theorem Opcode.exec_digits {c : Core} {w : Word} {b : Nat} (hi : c.regs.i = b) (hlow : 0x50 ≤ b)
    (hhigh : b ≤ 0xFFD) : ∃ next dropped, exec .ldBVx w c = .ok (.done next dropped) ∧
      c.StoredDigits next b w.x := by
  let data := (c.regs.get w.x).decimalDigits
  have hin : Memory.InRange c.regs.i data.length := by
    show Memory.InRange c.regs.i 3
    unfold Memory.InRange
    omega
  let stored := c.memory.storeBytes c.regs.i.toNat data
  have hstored : c.memory.writeBlock c.regs.i data = .ok stored :=
    Memory.writeBlock_eq_ok_iff.mpr ⟨hin, rfl⟩
  have hbyte : ∀ k : Nat, stored.memory.byte k =
      if c.regs.i ≤ k ∧ k < c.regs.i + 3 ∧ 80 ≤ k then data[k - c.regs.i.toNat]?.getD 0
      else c.memory.byte k := Memory.byte_writeBlock hstored
  refine ⟨({ c with memory := stored.memory } : Core).next, stored.dropped, ?_, ?_⟩
  · show (c.writeIndexed data).map _ = _
    unfold Core.writeIndexed
    rw [hstored]
    rfl
  constructor
  case digits =>
    intro k hk
    have hlength : k < data.length := hk
    show data[k]? = some (stored.memory.byte (b + k))
    rw [hbyte, if_pos (by omega), hi, Int.toNat_natCast, Nat.add_sub_cancel_left,
      List.getElem?_eq_getElem hlength, Option.getD_some]
  case others =>
    intro k hk
    show stored.memory.byte k = _
    rw [hbyte, if_neg (by omega)]
  case index => rfl

namespace Machine

variable {σ : Type} [Surface σ] {m : Machine σ} {w store point draw : Word} {b : Nat}

/-- A step has gone on to the next word, and has asked nothing of the surface. -/
structure MovesOn (m : Machine σ) : Prop where
  fault : m.step.fault? = none
  surface : m.step.machine.surface = m.surface
  pc : m.step.machine.core.regs.pc = m.core.regs.pc + 2

theorem movesOn_of_done (op : Opcode) {next : Core} {dropped : List DroppedWrite}
    (hfetch : m.core.fetch = .ok w) (hw : w.Fits op.pattern) (hmoves : op.movesOn = true)
    (hexec : op.exec w m.core.tick = .ok (.done next dropped)) :
    m.MovesOn ∧ m.step.machine.core = next := by
  obtain ⟨hfault, hstep⟩ := step_of_done hfetch ((Word.fits_pattern_iff op).mp hw) hexec
  have hframe : op.Frame m.core.tick next := (Opcode.Yields.done hexec).frame
  rw [hstep]
  exact ⟨⟨hfault, by rw [hstep], by rw [hstep]; exact hframe.pc hmoves⟩, rfl⟩

theorem storedDigits_of_step (hfetch : m.core.fetch = .ok w) (hw : w.Fits "Fx33")
    (hi : m.core.regs.i = b) (hlow : 0x50 ≤ b) (hhigh : b ≤ 0xFFD) :
    m.MovesOn ∧ m.core.StoredDigits m.step.machine.core b w.x := by
  obtain ⟨next, dropped, hexec, hstored⟩ := Opcode.exec_digits (c := m.core.tick) hi hlow hhigh
  obtain ⟨hmoves, hnext⟩ := movesOn_of_done .ldBVx hfetch hw rfl hexec
  rw [hnext]
  exact ⟨hmoves, hstored.digits, hstored.others, hstored.index⟩

theorem pointsAt_of_step (hfetch : m.core.fetch = .ok w) (hw : w.Fits "Fx29") :
    m.MovesOn ∧ m.core.PointsAt m.step.machine.core w.x := by
  obtain ⟨hmoves, hnext⟩ := movesOn_of_done .ldFVx hfetch hw rfl rfl
  rw [hnext]
  exact ⟨hmoves, fun z => rfl, rfl, rfl⟩

/-- The second step: digits that lie at the index register are loaded. -/
theorem loaded_and_movesOn (hfetch : m.core.fetch = .ok w) (hw : w.Fits "Fx65") (hi : m.core.regs.i = b)
    (h : b + w.x.val ≤ 0xFFF) : m.MovesOn ∧ m.core.Loaded m.step.machine.core b w.x ∧
      m.step.machine.core.memory = m.core.memory := by
  obtain ⟨next, hexec, hloaded⟩ := Opcode.exec_load (c := m.core.tick) hi h
  obtain ⟨hmoves, hnext⟩ := movesOn_of_done .ldVxMem hfetch hw rfl hexec
  have hframe : Opcode.Frame .ldVxMem m.core.tick next := (Opcode.Yields.done hexec).frame
  rw [hnext]
  exact ⟨hmoves, ⟨hloaded.filled, hloaded.others, hloaded.index⟩, hframe.memory (by decide)⟩

/-! ## Two steps and two steps -/

/-- Two steps have loaded the digits of the register `x`, and have come to the word `point`. -/
structure LoadsDigits (m : Machine σ) (x : Nibble) (point draw : Word) : Prop where
  fault : ∀ k < 2, (m.after k).step.fault? = none
  digits : (m.after 2).core.regs.HoldDigits (m.core.regs.get x).toNat
  index : (m.after 2).core.regs.i = m.core.regs.i + 3
  surface : (m.after 2).surface = m.surface
  font : (m.after 2).core.memory.HasFont
  fetch : (m.after 2).core.fetch = .ok point
  following : (m.after 2).core.memory.read16 ((m.after 2).core.regs.pc + 2) = .ok draw

theorem loadsDigits_of_atDigitPrinting (hfont : m.core.memory.HasFont)
    (h : m.core.AtDigitPrinting store point draw) : m.LoadsDigits store.x point draw := by
  have hlow := h.low
  have hhigh := h.high
  obtain ⟨b, hb⟩ : ∃ b : Nat, m.core.regs.i = b := Int.eq_ofNat_of_zero_le (by omega)
  -- the first step stores the digits at `b`, away from the font and from the words still to come
  obtain ⟨hmoves, hstored⟩ := storedDigits_of_step h.fetch h.stores hb (by omega) (by omega)
  have hword : ∀ (d : Int) (w : Word), 2 ≤ d → d ≤ 6 →
      m.core.memory.read16 (m.core.regs.pc + d) = .ok w →
      (m.after 1).core.memory.read16 (m.core.regs.pc + d) = .ok w := by
    intro d w hfirst hlast hread
    refine Memory.read16_congr hread fun k hk hk' => hstored.others k ?_
    have hapart := h.apart
    omega
  have hpc : (m.after 1).core.regs.pc = m.core.regs.pc + 2 := hmoves.pc
  -- the second loads them
  have hx : (0xF265 : Word).x = 2 := rfl
  have hfetch : (m.after 1).core.fetch = .ok 0xF265 := by
    rw [Core.fetch, hpc]
    exact hword 2 _ (by decide) (by decide) h.load
  obtain ⟨hmoves', hloaded, hmemory⟩ := loaded_and_movesOn (b := b) hfetch (by decide)
    (hstored.index.trans hb) (by rw [hx]; omega)
  have hpc' : (m.after 2).core.regs.pc = m.core.regs.pc + 4 :=
    hmoves'.pc.trans (by rw [hpc]; omega)
  have hread : (m.after 2).core.memory.read16 = (m.after 1).core.memory.read16 :=
    congrArg Memory.read16 hmemory
  rw [hx] at hloaded
  constructor
  case fault =>
    intro k hk
    match k, hk with
    | 0, _ => exact hmoves.fault
    | 1, _ => exact hmoves'.fault
  case digits =>
    refine Registers.holdDigits_of_eq fun z hz => ?_
    exact (hstored.digits z (Nat.lt_succ_of_le hz)).trans (congrArg some (hloaded.filled z hz).symm)
  case index => exact hloaded.index.trans (by rw [hb]; rfl)
  case surface => exact hmoves'.surface.trans hmoves.surface
  case font =>
    have hfont₁ : (m.after 1).core.memory.HasFont :=
      hfont.congr fun k hk => hstored.others k (Or.inl (by omega))
    exact hmemory ▸ hfont₁
  case fetch =>
    rw [Core.fetch, hpc', hread]
    exact hword 4 _ (by decide) (by decide) h.third
  case following =>
    rw [hpc', hread, Int.add_assoc]
    exact hword 6 _ (by decide) (by decide) h.fourth

/-- Two steps put the index register at the glyph of a digit and draw it. -/
structure DrawsDigit (m : Machine σ) (point draw : Word) (digit : Nibble) : Prop where
  fault : m.step.fault? = none
  v : ∀ z, (m.after 1).core.regs.get z = m.core.regs.get z
  surface : (m.after 1).surface = m.surface
  request : (m.after 1).core.request? = some
    (.draw ((m.after 1).core.regs.get draw.x) ((m.after 1).core.regs.get draw.y) (Font.glyph digit))

theorem drawsDigit_of_fetch {digit : Nibble} (hfont : m.core.memory.HasFont)
    (hfetch : m.core.fetch = .ok point) (hpoint : point.Fits "Fx29")
    (hnext : m.core.memory.read16 (m.core.regs.pc + 2) = .ok draw) (hdraw : draw.Fits "Dxy5")
    (hdigit : (m.core.regs.get point.x).toNat = digit.val) : m.DrawsDigit point draw digit := by
  obtain ⟨hmoves, hpoints⟩ := pointsAt_of_step hfetch hpoint
  have hfetch' : (m.after 1).core.fetch = .ok draw := by
    refine Eq.trans ?_ hnext
    rw [Core.fetch]
    exact congr (congrArg Memory.read16 hpoints.memory) hmoves.pc
  constructor
  case fault => exact hmoves.fault
  case v => exact hpoints.v
  case surface => exact hmoves.surface
  case request =>
    refine Core.request?_glyph ?_ hfetch' hdraw ?_
    · exact hpoints.memory ▸ hfont
    · exact hpoints.index.trans (by rw [hdigit])

/-! ## Four steps -/

/-- Four steps from `m` print a digit of the register that the first word names. -/
structure PrintsDigit (m : Machine σ) (store point draw : Word) : Prop where
  fault : ∀ k < 3, (m.after k).step.fault? = none
  digits : (m.after 2).core.regs.HoldDigits (m.core.regs.get store.x).toNat
  index : (m.after 2).core.regs.i = m.core.regs.i + 3
  v : ∀ z, (m.after 3).core.regs.get z = (m.after 2).core.regs.get z
  drawing : let c := (m.after 3).core
    ∃ digit : Nibble, digit.val = (c.regs.get point.x).toNat ∧
      let asked := Request.draw (c.regs.get draw.x) (c.regs.get draw.y) (Font.glyph digit)
      c.request? = some asked ∧ (m.after 4).surface = Surface.answered m.surface asked

theorem printsDigit_of_atDigitPrinting (hfont : m.core.memory.HasFont)
    (h : m.core.AtDigitPrinting store point draw) : m.PrintsDigit store point draw := by
  have hloads := loadsDigits_of_atDigitPrinting hfont h
  have hle := hloads.digits.le_nine h.digit
  let digit : Nibble := ⟨((m.after 2).core.regs.get point.x).toNat, by omega⟩
  have hdraws : (m.after 2).DrawsDigit point draw digit :=
    drawsDigit_of_fetch hloads.font hloads.fetch h.points hloads.following h.draws rfl
  have hrequest : (m.after 3).core.request? = some (.draw ((m.after 3).core.regs.get draw.x)
      ((m.after 3).core.regs.get draw.y) (Font.glyph digit)) := hdraws.request
  constructor
  case fault =>
    intro k hk
    rcases Nat.lt_succ_iff_lt_or_eq.mp hk with hfirst | rfl
    · exact hloads.fault k hfirst
    · exact hdraws.fault
  case digits => exact hloads.digits
  case index => exact hloads.index
  case v => exact hdraws.v
  case drawing =>
    refine ⟨digit, ?_, hrequest, ?_⟩
    · exact congrArg UInt8.toNat (hdraws.v point.x).symm
    · have hsurface : (m.after 3).surface = m.surface := hdraws.surface.trans hloads.surface
      rw [← hsurface, after, step_surface, hrequest]
      rfl

end Machine

namespace Session

variable {σ : Type} [Surface σ] [Keyed σ]

/-- **A number is printed in decimal.** In whatever state a host has brought a machine to: if the next
four words store the digits of a register, load V0 to V2, point at one of these and draw five rows, and
the digits lie past the font and not over the words that are still to come, then none of the first
three steps faults, V0 to V2 come to hold the digits of what the register held, the index register ends
just past the digits, and the fourth step asks the surface for the glyph of the digit chosen, at the
coordinates that the registers then hold, and leaves the surface as that request does. -/
theorem decimal_digits_printed {surface : σ} {random : RandomSource} {image : List Byte}
    {threshold : Int} {s : Session σ} (h : create surface random image threshold = .ok s)
    (ops : List Operation) :
    let m := (s.applyAll ops).1.machine
    ∀ store point draw : Word, m.core.AtDigitPrinting store point draw →
      m.PrintsDigit store point draw := by
  intro m store point draw hprinting
  exact Machine.printsDigit_of_atDigitPrinting (Memory.hasFont_kept.reached h ops) hprinting

/-- V2 holds 207 and its digits go just before the four words, over the word that has set the index
register. They are loaded over V2, and the units are drawn at the hundreds and the tens. -/
theorem decimal_digits_printed_over_source :
    ∃ s, create (⟨none, false, #[]⟩ : Recorder) (.cycle #[])
        [0x62, 0xCF, 0xA2, 0x01, 0xF2, 0x33, 0xF2, 0x65, 0xF2, 0x29, 0xD0, 0x15] 10 = .ok s ∧
      let m := (s.applyAll [.run 2]).1.machine
      m.core.AtDigitPrinting 0xF233 0xF229 0xD015 ∧ m.core.regs.get 2 = 207 ∧
      (m.after 2).core.regs.HoldDigits 207 ∧
      (m.after 3).core.request? = some (.draw 2 0 [0xF0, 0x10, 0x20, 0x40, 0x40]) := by
  have hcreate : create (⟨none, false, #[]⟩ : Recorder) (.cycle #[])
      [0x62, 0xCF, 0xA2, 0x01, 0xF2, 0x33, 0xF2, 0x65, 0xF2, 0x29, 0xD0, 0x15] 10 = .ok _ := rfl
  refine ⟨_, hcreate, ?_⟩
  intro m
  obtain ⟨⟨hv, hi, hpc⟩, ⟨hfetch, hload, hthird, hfourth⟩, hunits, hcolumn, hrow⟩ :
      (m.core.regs.get 2 = 207 ∧ m.core.regs.i = 0x201 ∧ m.core.regs.pc = 0x204) ∧
      (m.core.fetch = .ok 0xF233 ∧ m.core.memory.read16 (0x204 + 2) = .ok 0xF265 ∧
        m.core.memory.read16 (0x204 + 4) = .ok 0xF229 ∧
        m.core.memory.read16 (0x204 + 6) = .ok 0xD015) ∧
      ((m.after 3).core.regs.get 2).toNat = 7 ∧
      (m.after 3).core.regs.get 0 = 2 ∧ (m.after 3).core.regs.get 1 = 0 := by
    decide +kernel
  have hat : m.core.AtDigitPrinting 0xF233 0xF229 0xD015 := by
    constructor
    case low | high | apart => omega
    case fetch => exact hfetch
    case load =>
      rw [hpc]
      exact hload
    case third =>
      rw [hpc]
      exact hthird
    case fourth =>
      rw [hpc]
      exact hfourth
    case stores | points | draws | digit => decide
  have hprints : m.PrintsDigit 0xF233 0xF229 0xD015 :=
    decimal_digits_printed hcreate [.run 2] 0xF233 0xF229 0xD015 hat
  have hdigits := hprints.digits
  rw [show (0xF233 : Word).x = 2 from rfl, hv] at hdigits
  obtain ⟨digit, hdigit, hrequest, -⟩ := hprints.drawing
  have hseven : digit = 7 := Fin.ext (hdigit.trans hunits)
  refine ⟨hat, hv, hdigits, ?_⟩
  rw [hrequest, hseven]
  exact congrArg₂ (fun x y => some (Request.draw x y (Font.glyph 7))) hcolumn hrow

end Session

end Chip8
