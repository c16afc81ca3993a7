import Chip8.Proofs.CallReturn
import Chip8.Proofs.Faults
import Chip8.Proofs.Patterns
import Chip8.Proofs.Requests
import Chip8.Proofs.Stores

/-!
# What a step may change

Every instruction has its few places in a machine, and a step that does not fault changes nothing
outside of them. The words are told by their patterns, and each part of the machine says which words
may change it, and where (`Core.Footprint`, `Machine.Footprint`).

* `Core.footprint_of_yields` — an instruction changes no more of a core
* `Machine.step_footprint` — nor does a step of a machine with a frame buffer
-/

namespace Chip8

/-! ## Footprints -/

/-- The word may put the byte register. -/
inductive Word.Puts (w : Word) (z : Nibble) : Prop
  | result
    (hw : w.FitsAny ["6xkk", "7xkk", "8xy0", "8xy1", "8xy2", "8xy3", "Cxkk", "Fx07", "Fx0A"])
    (h : z = w.x) : Puts w z
  | flagged (hw : w.FitsAny ["8xy4", "8xy5", "8xy6", "8xy7", "8xyE"])
    (h : z = w.x ∨ z = Registers.flagIndex) : Puts w z
  | collision (hw : w.Fits "Dxyn") (h : z = Registers.flagIndex) : Puts w z
  | loaded (hw : w.Fits "Fx65") (h : z ≤ w.x) : Puts w z

/-- The word stores to the address, with the index register at `i`. -/
inductive Word.Stores (w : Word) (i : Int) (k : Nat) : Prop
  | digits (hw : w.Fits "Fx33") (h : i ≤ k ∧ k ≤ i + 2) : Stores w i k
  | registers (hw : w.Fits "Fx55") (h : i ≤ k ∧ k ≤ i + w.x) : Stores w i k

/-- What a step on the word `w` may change of a core. PC is left open. -/
structure Core.Footprint (w : Word) (c next : Core) : Prop where
  v : ∀ z, next.regs.get z ≠ c.regs.get z → w.Puts z
  i : next.regs.i ≠ c.regs.i → w.FitsAny ["Annn", "Fx1E", "Fx29", "Fx55", "Fx65"]
  memory : ∀ k, next.memory.byte k ≠ c.memory.byte k → 0x50 ≤ k ∧ w.Stores c.regs.i k
  depth : (next.regs.calls.depth.val : Int) =
    c.regs.calls.depth.val + if w.Fits "2nnn" then 1 else if w.Fits "00EE" then -1 else 0
  slots : ∀ k, next.regs.calls.slot k ≠ c.regs.calls.slot k →
    w.Fits "2nnn" ∧ k.val = c.regs.calls.depth.val
  delay : next.timers.delay.toNat =
    if w.Fits "Fx15" then (c.regs.get w.x).toNat else c.timers.delay.toNat - 1
  sound : next.timers.sound.toNat =
    if w.Fits "Fx18" then (c.regs.get w.x).toNat else c.timers.sound.toNat - 1
  random : next.random =
    { c.random with drawn := c.random.drawn + if w.Fits "Cxkk" then 1 else 0 }
  drawn : w.Fits "Cxkk" → next.regs.get w.x = c.random.stream c.random.drawn &&& w.kk
  steps : next.steps = c.steps + 1

/-! ## Registers -/

namespace Registers

variable {r : Registers} {z : Nibble}

theorem getElem?_upTo {x : Nibble} (h : z ≤ x) : (r.upTo x)[z.val]? = some (r.get z) := by
  unfold upTo
  rw [List.getElem?_take_of_lt (Nat.lt_succ_of_le h), Vector.getElem?_toList,
    Vector.getElem?_eq_getElem z.isLt]
  rfl

theorem get_load (data : List Byte) : (r.load data).get z = data[z.val]?.getD (r.get z) := by
  rw [get_mk, get_mk, load, Vector.getElem_ofFn]
  rfl

theorem get_load_of_length_le {data : List Byte} (h : data.length ≤ z.val) :
    (r.load data).get z = r.get z := by
  rw [get_load, List.getElem?_eq_none h, Option.getD_none]

end Registers

theorem Core.get_next_advanceIndex (c : Core) (count : Nat) (z : Nibble) :
    (c.advanceIndex count).next.regs.get z = c.regs.get z := rfl

namespace Opcode

variable {op : Opcode} {w : Word} {c next : Core}

theorem ensures_puts (hop : ofWord? w = some op) (z : Nibble) :
    Ensures (fun next => next.regs.get z ≠ c.regs.get z → w.Puts z) (op.exec w c) := by
  have hw := fits_of_ofWord? hop
  cases op with
  | ldByte | addByte | ldReg | or | and | xor | rnd | ldVxDt =>
    intro hz
    by_cases hx : z = w.x
    · exact .result ⟨_, by decide, hw⟩ hx
    · exact absurd (Registers.get_set_of_ne hx) hz
  | ldVxK =>
    rintro (_ | key) hz
    · exact absurd rfl hz
    · by_cases hx : z = w.x
      · exact .result ⟨_, by decide, hw⟩ hx
      · exact absurd (Registers.get_set_of_ne hx) hz
  | addReg | sub | shr | subn | shl =>
    intro hz
    by_cases hput : z = w.x ∨ z = Registers.flagIndex
    · exact .flagged ⟨_, by decide, hw⟩ hput
    · -- the flag is put before the result; neither is this register
      obtain ⟨hx, hflag⟩ := not_or.mp hput
      exact absurd ((Registers.get_set_of_ne hx).trans (Registers.get_set_of_ne hflag)) hz
  | drw =>
    refine ensures_readIndexed fun _ hit hz => ?_
    by_cases hflag : z = Registers.flagIndex
    · exact .collision hw hflag
    · exact absurd (Registers.get_set_of_ne hflag) hz
  | ldVxMem =>
    refine ensures_readIndexed fun _ hz => ?_
    by_cases hx : z ≤ w.x
    · exact .loaded hw hx
    · refine absurd ((Core.get_next_advanceIndex _ _ z).trans ?_) hz
      refine Registers.get_load_of_length_le ?_
      rw [Memory.length_block]
      exact Nat.lt_of_not_le hx
  | call => exact ensures_call fun _ _ hz => absurd rfl hz
  | ret => exact ensures_ret fun _ _ _ hz => absurd rfl hz
  | ldBVx | ldMemVx => exact ensures_writeIndexed fun _ hz => absurd rfl hz
  | cls | skp | sknp => exact fun _ hz => absurd rfl hz
  | _ => exact fun hz => absurd rfl hz

/-! ## Memory -/

theorem stores?_eq_some {r : Registers} {data : List Byte} (h : op.stores? w r = some data) :
    (op = .ldBVx ∧ data.length = 3) ∨ (op = .ldMemVx ∧ data.length = w.x.val + 1) := by
  unfold stores? at h
  split at h
  · cases h
    exact Or.inl ⟨rfl, rfl⟩
  · cases h
    exact Or.inr ⟨rfl, r.length_upTo w.x⟩
  · cases h

theorem Yields.stores (h : op.Yields w c next) (hop : ofWord? w = some op) {k : Nat}
    (hk : next.memory.byte k ≠ c.memory.byte k) : 0x50 ≤ k ∧ w.Stores c.regs.i k := by
  rcases h.memory_cases with ⟨_, hsame⟩ | ⟨data, stored, hdata, hstored, hnext⟩
  · exact absurd (congrArg (Memory.byte · k) hsame) hk
  · rw [hnext, Memory.byte_writeBlock hstored] at hk
    split at hk
    · next hin =>
      obtain ⟨hlow, hhigh, hfont⟩ := hin
      refine ⟨hfont, ?_⟩
      rcases stores?_eq_some hdata with ⟨rfl, hlength⟩ | ⟨rfl, hlength⟩
      · exact .digits (fits_of_ofWord? hop) (by omega)
      · exact .registers (fits_of_ofWord? hop) (by omega)
    · exact absurd rfl hk

/-! ## Index register and call stack -/

theorem Yields.mem_of_i_ne (h : op.Yields w c next) (hi : next.regs.i ≠ c.regs.i) :
    op ∈ [Opcode.ldI, .addIVx, .ldFVx, .ldMemVx, .ldVxMem] :=
  Decidable.by_contra fun hmem => hi (h.frame.i hmem)

theorem Yields.depth_eq (h : op.Yields w c next) : (next.regs.calls.depth.val : Int) =
    c.regs.calls.depth.val + if op = .call then 1 else if op = .ret then -1 else 0 := by
  rcases h.calls_cases with ⟨rfl, hpush⟩ | ⟨rfl, caller, hpop, _⟩ | ⟨hcall, hret, hsame⟩
  · rw [CallStack.depth_push hpush]
    rfl
  · rw [← CallStack.depth_pop hpop]
    exact (Int.add_neg_cancel_right _ 1).symm
  · rw [hsame, if_neg hcall, if_neg hret, Int.add_zero]

theorem Yields.call_of_slot_ne (h : op.Yields w c next) {k : Nibble}
    (hk : next.regs.calls.slot k ≠ c.regs.calls.slot k) :
    op = .call ∧ k.val = c.regs.calls.depth.val := by
  rcases h.calls_cases with ⟨rfl, hpush⟩ | ⟨rfl, caller, hpop, _⟩ | ⟨_, _, hsame⟩
  · rw [CallStack.slot_push hpush] at hk
    split at hk
    · next hslot => exact ⟨rfl, hslot⟩
    · exact absurd rfl hk
  -- a return leaves every slot, also the one it takes its address from
  · exact absurd (CallStack.slot_pop hpop k) hk
  · exact absurd (congrArg (CallStack.slot · k) hsame) hk

/-! ## Timers and the random source -/

theorem Yields.delay_eq (h : op.Yields w c next) :
    next.timers.delay = if op = .ldDtVx then c.regs.get w.x else c.timers.delay := by
  have hframe := h.frame
  cases op with
  | ldDtVx => exact h.of_ensures (Byte.ofInt_toInt _)
  | ldStVx => exact h.of_ensures rfl
  | _ => exact congrArg Timers.delay (hframe.timers (by decide))

theorem Yields.sound_eq (h : op.Yields w c next) :
    next.timers.sound = if op = .ldStVx then c.regs.get w.x else c.timers.sound := by
  have hframe := h.frame
  cases op with
  | ldStVx => exact h.of_ensures (Byte.ofInt_toInt _)
  | ldDtVx => exact h.of_ensures rfl
  | _ => exact congrArg Timers.sound (hframe.timers (by decide))

theorem Yields.random_eq (h : op.Yields w c next) : next.random =
    { c.random with drawn := c.random.drawn + if op = .rnd then 1 else 0 } := by
  by_cases hrnd : op = .rnd
  · subst hrnd
    exact h.of_ensures rfl
  · rw [if_neg hrnd]
    exact h.frame.random hrnd

theorem ensures_rnd : Ensures
    (fun next => next.regs.get w.x = c.random.stream c.random.drawn &&& w.kk) (exec .rnd w c) := by
  show (c.regs.set w.x _).get w.x = _
  rw [Registers.get_set_self]
  rfl

end Opcode

/-! ## Steps -/

namespace Core

variable {w : Word} {op : Opcode} {c next : Core}

/-- An instruction stays within the footprint of its word. -/
theorem footprint_of_yields (hop : Opcode.ofWord? w = some op) (h : op.Yields w c.tick next) :
    Footprint w c next := by
  have hfits : ∀ k : Opcode, w.Fits k.pattern ↔ op = k := by
    intro k
    rw [Word.fits_pattern_iff, hop, Option.some_inj]
  have hcall : w.Fits "2nnn" ↔ op = .call := hfits .call
  have hret : w.Fits "00EE" ↔ op = .ret := hfits .ret
  have hdelay : w.Fits "Fx15" ↔ op = .ldDtVx := hfits .ldDtVx
  have hsound : w.Fits "Fx18" ↔ op = .ldStVx := hfits .ldStVx
  have hrnd : w.Fits "Cxkk" ↔ op = .rnd := hfits .rnd
  constructor
  case v => exact fun z => h.of_ensures (Opcode.ensures_puts hop z)
  case i => exact fun hi => Word.fitsAny_of_mem hop (h.mem_of_i_ne hi)
  case memory => exact fun k hk => h.stores hop hk
  case depth =>
    simp only [hcall, hret]
    exact h.depth_eq
  case slots =>
    intro k hk
    obtain ⟨rfl, hslot⟩ := h.call_of_slot_ne hk
    exact ⟨hcall.mpr rfl, hslot⟩
  case delay =>
    simp only [hdelay, h.delay_eq]
    split
    · rfl
    · exact Timers.toNat_countDown c.timers.delay
  case sound =>
    simp only [hsound, h.sound_eq]
    split
    · rfl
    · exact Timers.toNat_countDown c.timers.sound
  case random =>
    simp only [hrnd]
    exact h.random_eq
  case drawn =>
    intro hw
    obtain rfl := hrnd.mp hw
    exact h.of_ensures Opcode.ensures_rnd
  case steps => exact h.frame.steps

theorem footprint_of_unsupported (hop : Opcode.ofWord? w = none) : Footprint w c c.tick.next := by
  have hno : ∀ k : Opcode, ¬ w.Fits k.pattern := by
    intro k hk
    rw [Word.fits_pattern_iff, hop] at hk
    cases hk
  have hcall : ¬ w.Fits "2nnn" := hno .call
  have hret : ¬ w.Fits "00EE" := hno .ret
  have hdelay : ¬ w.Fits "Fx15" := hno .ldDtVx
  have hsound : ¬ w.Fits "Fx18" := hno .ldStVx
  have hrnd : ¬ w.Fits "Cxkk" := hno .rnd
  constructor
  case v => exact fun _ hz => absurd rfl hz
  case i => exact fun hi => absurd rfl hi
  case memory => exact fun _ hk => absurd rfl hk
  case depth =>
    rw [if_neg hcall, if_neg hret, Int.add_zero]
    rfl
  case slots => exact fun _ hk => absurd rfl hk
  case delay =>
    rw [if_neg hdelay]
    exact Timers.toNat_countDown c.timers.delay
  case sound =>
    rw [if_neg hsound]
    exact Timers.toNat_countDown c.timers.sound
  case random =>
    rw [if_neg hrnd]
    rfl
  case drawn => exact fun hw => absurd hw hrnd
  case steps => rfl

end Core

namespace Machine

/-- A step may change a byte only if it stores there. -/
theorem byte_step {σ : Type} [Surface σ] {m : Machine σ} {k : Nat}
    (h : m.step.fault? = none → ∀ w, m.core.fetch = .ok w → ¬ w.Stores m.core.regs.i k) :
    m.step.machine.core.memory.byte k = m.core.memory.byte k := by
  cases hfault : m.step.fault? with
  | some fault =>
    rw [core_of_fault hfault]
    rfl
  | none =>
    obtain ⟨w, hfetch, ⟨_, hstep⟩ | ⟨op, hop, hyields⟩⟩ := step_of_no_fault hfault
    · rw [hstep]
      rfl
    · refine Decidable.by_contra fun hchanged => ?_
      exact h hfault w hfetch (hyields.stores hop hchanged).2

variable {width height : Nat}

/-- What a step on the word `w` may change of a machine with a frame buffer. -/
structure Footprint (w : Word) (m next : Machine (FrameBuffer width height)) : Prop where
  core : Core.Footprint w m.core next.core
  screen : next.surface.screen ≠ m.surface.screen → w.FitsAny ["00E0", "Dxyn"]
  keys : next.surface.keys = m.surface.keys
  unsupported : Opcode.ofWord? w = none → ∃ pc timers steps, next =
    ⟨{ m.core with regs := m.core.regs.jump pc, timers := timers, steps := steps }, m.surface⟩

/-- No step changes which keys are held. -/
theorem keys_step (m : Machine (FrameBuffer width height)) :
    m.step.machine.surface.keys = m.surface.keys := by
  rw [step_surface]
  cases m.core.request? with
  | none => rfl
  | some request => exact FrameBuffer.keys_answered

theorem opcode_of_screen_step {m : Machine (FrameBuffer width height)} {w : Word} {op : Opcode}
    (hfetch : m.core.fetch = .ok w) (hop : Opcode.ofWord? w = some op)
    (h : m.step.machine.surface.screen ≠ m.surface.screen) : op ∈ [Opcode.cls, .drw] := by
  rw [step_surface, Core.request?_of_ofWord? hfetch hop] at h
  cases hrequest : op.request? w m.core.tick with
  | none =>
    rw [hrequest] at h
    exact absurd rfl h
  | some request =>
    rw [hrequest] at h
    exact FrameBuffer.opcodes_of_screen_answered h op (Opcode.mem_opcodes_of_request? hrequest)

/-- **The footprint of every instruction.** A step that does not fault has fetched a word, and changes
nothing outside of that word's footprint. -/
theorem step_footprint (m : Machine (FrameBuffer width height)) (h : m.step.fault? = none) :
    ∃ w, m.core.fetch = .ok w ∧ Footprint w m m.step.machine := by
  obtain ⟨w, hfetch, ⟨hop, hstep⟩ | ⟨op, hop, hyields⟩⟩ := step_of_no_fault h
  · rw [hstep]
    refine ⟨w, hfetch, Core.footprint_of_unsupported hop, fun hpixels => absurd rfl hpixels, rfl, ?_⟩
    exact fun _ => ⟨_, _, _, rfl⟩
  · refine ⟨w, hfetch, Core.footprint_of_yields hop hyields, ?_, keys_step m, ?_⟩
    · intro hpixels
      exact Word.fitsAny_of_mem hop (opcode_of_screen_step hfetch hop hpixels)
    · intro hnone
      rw [hop] at hnone
      cases hnone

/-- Two steps from power-on, a program is about to store all registers from 4E on. The first two go into
the font. -/
def storeAcrossFontEnd : Machine (FrameBuffer 8 4) :=
  let image : List Byte := [0x6F, 0x04, 0xA0, 0x4E, 0xFF, 0x55]
  let memory := Memory.zeroed.loadFont.overlay Memory.programStart image
  after ⟨{ memory := memory, random := .cycle #[] }, {}⟩ 2

theorem storeAcrossFontEnd_footprint :
    storeAcrossFontEnd.step.fault? = none ∧
    storeAcrossFontEnd.step.machine.core.memory.byte 0x5D = 4 ∧
    storeAcrossFontEnd.step.machine.core.memory.byte 0x4E =
      storeAcrossFontEnd.core.memory.byte 0x4E := by
  have hfault : storeAcrossFontEnd.step.fault? = none := by decide +kernel
  obtain ⟨w, _, hfoot⟩ := step_footprint storeAcrossFontEnd hfault
  refine ⟨hfault, by decide +kernel, Decidable.by_contra fun hchanged => ?_⟩
  exact absurd (hfoot.core.memory 0x4E hchanged).1 (by decide)

end Machine

end Chip8
