import Chip8.FrameBuffer
import Chip8.Proofs.Alu
import Chip8.Proofs.Decode
import Chip8.Proofs.Step
import Chip8.Surface.Recorder

/-!
# Faults

When an instruction faults, with what, and what a faulting step leaves. An instruction faults in three
ways (`Opcode.Faults`): a call with a full stack, a return with an empty one, and an access to a block
at the index register that does not lie inside memory (`Opcode.block?`). All three depend on the
registers alone.

* `Opcode.exec_eq_error_iff` — execution fails in just these ways
* `Machine.step_fault_iff_halt` — a step faults on its fetch or on its instruction
* `Machine.step_fault_atomic` — a faulting step leaves all but the timers and the step count
* `Machine.step_faults_exactly` — the same by words, on surfaces that always answer
-/

namespace Chip8

/-! ## Instructions -/

namespace Opcode

/-- The block that an instruction accesses at the index register: the direction and the number of
bytes. -/
def block? (op : Opcode) (w : Word) : Option (Access × Nat) :=
  match op with
  | .drw => some (.read, w.n)
  | .ldBVx => some (.write, 3)
  | .ldMemVx => some (.write, w.x + 1)
  | .ldVxMem => some (.read, w.x + 1)
  | _ => none

/-- The ways in which an instruction faults. -/
inductive Faults (w : Word) (r : Registers) : Opcode → Halt → Prop
  | overflow (h : r.calls.depth.val = 16) : Faults w r .call (.stack (.overflow r.pc))
  | underflow (h : r.calls.depth.val = 0) : Faults w r .ret (.stack (.underflow r.pc))
  | access {op : Opcode} {access : Access} {count : Nat} (hblock : op.block? w = some (access, count))
    (h : ¬ Memory.InRange r.i count) : Faults w r op (.access ⟨access, r.i, count⟩)

end Opcode

theorem Registers.length_upTo (r : Registers) (x : Nibble) : (r.upTo x).length = x.val + 1 := by
  have hx := x.isLt
  unfold upTo
  rw [List.length_take, Vector.length_toList]
  omega

namespace Core

variable {c : Core} {halt : Halt}

theorem readIndexed_eq_error_iff {count : Nat} :
    c.readIndexed count = .error halt ↔
      ¬ Memory.InRange c.regs.i count ∧ halt = .access ⟨.read, c.regs.i, count⟩ := by
  unfold readIndexed Memory.readBlock
  by_cases hin : Memory.InRange c.regs.i count
  · simp [hin]
  · simp [hin, eq_comm]

theorem writeIndexed_eq_error_iff {data : List Byte} :
    c.writeIndexed data = .error halt ↔
      ¬ Memory.InRange c.regs.i data.length ∧ halt = .access ⟨.write, c.regs.i, data.length⟩ := by
  unfold writeIndexed
  rw [Memory.writeBlock_eq]
  by_cases hin : Memory.InRange c.regs.i data.length
  · simp [hin]
  · simp [hin, eq_comm]

theorem call_eq_error_iff {target : Int} :
    c.call target = .error halt ↔
      c.regs.calls.depth.val = 16 ∧ halt = .stack (.overflow c.regs.pc) := by
  unfold call
  rw [Registers.push_eq, ← CallStack.push?_eq_none_iff (a := Word.ofInt c.regs.pc)]
  cases hpush : c.regs.calls.push? (Word.ofInt c.regs.pc) with
  | some calls => simp
  | none => simp [eq_comm]

theorem ret_eq_error_iff :
    c.ret = .error halt ↔
      c.regs.calls.depth.val = 0 ∧ halt = .stack (.underflow c.regs.pc) := by
  unfold ret
  rw [Registers.pop_eq, ← CallStack.pop?_eq_none_iff]
  cases hpop : c.regs.calls.pop? with
  | some popped => simp
  | none => simp [eq_comm]

end Core

theorem map_eq_error_iff {ε α β : Type} {x : Except ε α} {f : α → β} {e : ε} :
    x.map f = .error e ↔ x = .error e := by
  cases x with
  | error e' => simp [Except.map]
  | ok a => simp [Except.map]

/-- Execution fails in just the ways of `Faults`. -/
theorem Opcode.exec_eq_error_iff {op : Opcode} {w : Word} {c : Core} {halt : Halt} :
    op.exec w c = .error halt ↔ op.Faults w c.regs halt := by
  constructor
  · intro h
    -- six instructions call an operation that can fail; no other case has an error
    cases op with
    | call =>
      obtain ⟨hfull, rfl⟩ := Core.call_eq_error_iff.mp (map_eq_error_iff.mp h)
      exact .overflow hfull
    | ret =>
      obtain ⟨hempty, rfl⟩ := Core.ret_eq_error_iff.mp (map_eq_error_iff.mp h)
      exact .underflow hempty
    | drw | ldVxMem =>
      obtain ⟨hout, rfl⟩ := Core.readIndexed_eq_error_iff.mp (map_eq_error_iff.mp h)
      exact .access rfl hout
    | ldBVx =>
      obtain ⟨hout, rfl⟩ := Core.writeIndexed_eq_error_iff.mp (map_eq_error_iff.mp h)
      exact .access rfl hout
    | ldMemVx =>
      obtain ⟨hout, rfl⟩ := Core.writeIndexed_eq_error_iff.mp (map_eq_error_iff.mp h)
      rw [Registers.length_upTo] at hout ⊢
      exact .access rfl hout
    | _ => cases h
  · intro h
    cases h with
    | overflow hfull => exact map_eq_error_iff.mpr (Core.call_eq_error_iff.mpr ⟨hfull, rfl⟩)
    | underflow hempty => exact map_eq_error_iff.mpr (Core.ret_eq_error_iff.mpr ⟨hempty, rfl⟩)
    | access hblock hout =>
      cases op with
      | drw | ldVxMem =>
        cases hblock
        exact map_eq_error_iff.mpr (Core.readIndexed_eq_error_iff.mpr ⟨hout, rfl⟩)
      | ldBVx =>
        cases hblock
        exact map_eq_error_iff.mpr (Core.writeIndexed_eq_error_iff.mpr ⟨hout, rfl⟩)
      | ldMemVx =>
        cases hblock
        refine map_eq_error_iff.mpr (Core.writeIndexed_eq_error_iff.mpr ?_)
        rw [Registers.length_upTo]
        exact ⟨hout, rfl⟩
      | _ => cases hblock

/-! ## Steps -/

namespace Machine

variable {σ : Type} [Surface σ]

theorem perform_fault_iff_halt {op : Opcode} {w : Word} {c : Core} {s : σ} {halt : Halt} :
    (perform op w c s).fault? = some (.halt halt) ↔ op.exec w c = .error halt := by
  rw [perform_eq]
  cases hexec : op.exec w c with
  | error e => simp
  | ok action =>
    cases action with
    | done next dropped => simp
    | ask request resume =>
      simp only
      cases hask : Surface.ask s request with
      | error cause => simp
      | ok answer => simp

/-- A surface's fault leaves what the surface has made of itself. -/
theorem ask_of_perform_fault {op : Opcode} {w : Word} {c : Core} {s : σ} {cause : SurfaceFault}
    (h : (perform op w c s).fault? = some (.surface cause)) :
    ∃ request, Surface.ask s request = .error cause ∧
      (perform op w c s).machine.surface = Surface.answered s request := by
  rw [perform_eq] at h ⊢
  cases hexec : op.exec w c with
  | error e => simp [hexec] at h
  | ok action =>
    cases action with
    | done next dropped => simp [hexec] at h
    | ask request resume =>
      simp only [hexec] at h ⊢
      cases hask : Surface.ask s request with
      | error e =>
        simp only [hask, Option.some.injEq, Fault.surface.injEq] at h
        exact ⟨request, h ▸ hask, rfl⟩
      | ok answer => simp [hask] at h

/-- A step halts on a fetch from outside memory or on a fault of its instruction. -/
theorem step_fault_iff_halt {m : Machine σ} {halt : Halt} :
    m.step.fault? = some (.halt halt) ↔
      (∃ f, m.core.fetch = .error f ∧ halt = .access f) ∨
      (∃ w op, m.core.fetch = .ok w ∧ Opcode.ofWord? w = some op ∧
        op.Faults w m.core.regs halt) := by
  rcases step_cases m with ⟨f, hfetch, hstep⟩ | ⟨w, hfetch, hop, hstep⟩ | ⟨w, op, hfetch, hop, hstep⟩
  · simp [hstep, hfetch, eq_comm]
  · -- a word that is no instruction is stepped over
    simp [hstep, hfetch, hop]
  · rw [hstep, perform_fault_iff_halt, Opcode.exec_eq_error_iff]
    constructor
    · exact fun h => Or.inr ⟨w, op, hfetch, hop, h⟩
    · rintro (⟨f, he, _⟩ | ⟨w', op', he, ho, h⟩)
      · rw [hfetch] at he
        cases he
      · rw [hfetch] at he
        cases he
        rw [hop] at ho
        cases ho
        exact h

/-- Only a request that the surface refuses ends a step with the surface's fault. -/
theorem ask_of_step_fault {m : Machine σ} {cause : SurfaceFault}
    (h : m.step.fault? = some (.surface cause)) :
    ∃ request, Surface.ask m.surface request = .error cause ∧
      m.step.machine.surface = Surface.answered m.surface request := by
  rcases step_cases m with ⟨f, _, hstep⟩ | ⟨w, _, _, hstep⟩ | ⟨w, op, _, _, hstep⟩
  · simp [hstep] at h
  · simp [hstep] at h
  · rw [hstep] at h ⊢
    exact ask_of_perform_fault h

end Machine

/-! ## What a fault leaves -/

/-- A surface that cannot answer a request stays as it is. -/
def Surface.Atomic (σ : Type) [Surface σ] : Prop :=
  ∀ r : Request, (Surface.respond r : Attempt SurfaceFault σ r.Reply).Atomic

theorem Detached.atomic : Surface.Atomic Detached := fun _ {_} {_} {_} _ => rfl

theorem Recorder.atomic : Surface.Atomic Recorder := fun _ {_} {_} {_} h => nomatch h

/-- Only a drawing can fail on a frame buffer, and then no cell has been flipped. -/
theorem FrameBuffer.atomic (width height : Nat) : Surface.Atomic (FrameBuffer width height) := by
  intro r fb cause reached h
  cases r with
  | draw x y rows =>
    have hdrawing := (drawing_eq fb x.toInt y.toInt (rows.map Byte.toInt)).symm.trans h
    cases hdraw : fb.screen.draw? x.toInt y.toInt (rows.map Byte.toInt) with
    | some drawn =>
      rw [hdraw] at hdrawing
      cases hdrawing
    | none =>
      rw [hdraw] at hdrawing
      cases hdrawing
      rfl
  | clear | key index | anyKey => cases h

/-- Of a core, a step has only counted: both timers, not below zero, and itself. -/
structure Core.OnlyCounted (c left : Core) : Prop where
  v : left.regs.v = c.regs.v
  i : left.regs.i = c.regs.i
  pc : left.regs.pc = c.regs.pc
  depth : left.regs.calls.depth = c.regs.calls.depth
  slots : left.regs.calls.slots = c.regs.calls.slots
  memory : left.memory = c.memory
  random : left.random = c.random
  steps : left.steps = c.steps + 1
  delay : left.timers.delay.toNat = c.timers.delay.toNat - 1
  sound : left.timers.sound.toNat = c.timers.sound.toNat - 1

theorem Core.onlyCounted_tick (c : Core) : c.OnlyCounted c.tick where
  v := rfl
  i := rfl
  pc := rfl
  depth := rfl
  slots := rfl
  memory := rfl
  random := rfl
  steps := rfl
  delay := Timers.toNat_countDown _
  sound := Timers.toNat_countDown _

namespace Machine

/-- What a fault has made of a surface: nothing if the program is at fault, and else what a request has
made of it that it could not answer. -/
def FaultLeaves {σ : Type} [Surface σ] (s left : σ) : Fault → Prop
  | .halt _ => left = s
  | .surface cause => ∃ r, (Surface.respond r).run s = .error cause left

theorem faultLeaves_step {σ : Type} [Surface σ] {m : Machine σ} {fault : Fault}
    (h : m.step.fault? = some fault) : FaultLeaves m.surface m.step.machine.surface fault := by
  cases fault with
  | halt halt =>
    show m.step.machine.surface = m.surface
    rw [step_of_halt h]
  | surface cause =>
    obtain ⟨r, hrefused, hleft⟩ := ask_of_step_fault h
    exact ⟨r, hleft ▸ Surface.respond_of_ask_error hrefused⟩

theorem FaultLeaves.eq {σ : Type} [Surface σ] {s left : σ} {fault : Fault}
    (h : FaultLeaves s left fault) (hσ : Surface.Atomic σ) : left = s := by
  cases fault with
  | halt halt => exact h
  | surface cause =>
    obtain ⟨r, hrefused⟩ := h
    exact hσ r hrefused

/-- **A faulting step is atomic.** Whatever ends a step, and whatever its log takes, the registers, the
call stack, memory and the random source are as they were; the step is counted and both timers have
counted down. The surface has changed only if it changed itself when it could not answer, which a frame
buffer of any size, a recorder and the surface of a machine without a host never do. -/
theorem step_fault_atomic :
    (∀ {σ : Type} [Surface σ] {m : Machine σ} {threshold : Int} {fault : Fault},
      (m.stepAt threshold).fault? = some fault →
      let left := (m.stepAt threshold).machine
      m.core.OnlyCounted left.core ∧ FaultLeaves m.surface left.surface fault ∧
      (Surface.Atomic σ → left.surface = m.surface)) ∧
    (∀ width height, Surface.Atomic (FrameBuffer width height)) ∧
    Surface.Atomic Recorder ∧ Surface.Atomic Detached := by
  refine ⟨?_, FrameBuffer.atomic, Recorder.atomic, Detached.atomic⟩
  intro σ _ m threshold fault h left
  obtain ⟨hmachine, hfault, -⟩ := m.logsAlike_stepAt threshold
  have hstep : m.step.fault? = some fault := hfault.symm.trans h
  have hleft : left = m.step.machine := hmachine
  have hleaves : FaultLeaves m.surface left.surface fault := by
    rw [hleft]
    exact faultLeaves_step hstep
  refine ⟨?_, hleaves, hleaves.eq⟩
  rw [hleft, core_of_fault hstep]
  exact m.core.onlyCounted_tick

/-- A set bit drawn at (0, 0) where there are rows but no columns, with both timers running. -/
def drawOnNoColumns : Machine (FrameBuffer 0 4) :=
  ⟨{ (ofImage [0xD0, 0x01]).core with regs := { i := 0x200 }, timers := ⟨9, 0⟩ }, {}⟩

theorem drawOnNoColumns_atomic :
    let left := drawOnNoColumns.stepAt Level.warning.rank
    left.fault? = some (.surface .noCells) ∧ left.machine.core.regs.pc = 0x200 ∧
    left.machine.core.timers.delay.toNat = 8 ∧ left.machine.surface = drawOnNoColumns.surface := by
  have hfault : (drawOnNoColumns.stepAt Level.warning.rank).fault? = some (.surface .noCells) := by
    decide +kernel
  have hpc : drawOnNoColumns.core.regs.pc = 0x200 := rfl
  have hdelay : drawOnNoColumns.core.timers.delay.toNat - 1 = 8 := rfl
  obtain ⟨hstep, hframe, -⟩ := step_fault_atomic
  obtain ⟨hcore, -, hsurface⟩ := hstep hfault
  exact ⟨hfault, hcore.pc.trans hpc, hcore.delay.trans hdelay, hsurface (hframe 0 4)⟩

end Machine

/-! ## Surfaces that always answer -/

/-- Every request is answered in every state. -/
def Surface.Total (σ : Type) [Surface σ] : Prop :=
  ∀ (s : σ) (r : Request), ∃ answer, Surface.ask s r = .ok answer

theorem Recorder.total : Surface.Total Recorder := fun _ _ => ⟨_, rfl⟩

theorem FrameBuffer.total {width height : Nat} (hw : 0 < width) (hh : 0 < height) :
    Surface.Total (FrameBuffer width height) := by
  intro fb r
  cases r with
  | clear => exact ⟨_, rfl⟩
  | draw x y rows =>
    show ∃ answer, fb.draw x.toInt y.toInt (rows.map Byte.toInt) = .ok answer
    rw [draw_eq]
    unfold Screen.draw?
    rw [dif_pos ⟨hw, hh⟩]
    exact ⟨_, rfl⟩
  | key index => exact ⟨_, rfl⟩
  | anyKey => exact ⟨_, rfl⟩

/-! ## Faults by words -/

/-- The word accesses a block at the index register that does not lie inside memory: the digits of
Fx33, the registers of Fx55 and Fx65, the rows of Dxyn. -/
inductive Registers.Refuses (r : Registers) (w : Word) : AccessFault → Prop
  | digits (hw : w.group = 0xF ∧ w.kk = 0x33) (h : r.i < 0 ∨ 0x1000 < r.i + 3) :
    Refuses r w ⟨.write, r.i, 3⟩
  | store (hw : w.group = 0xF ∧ w.kk = 0x55) (h : r.i < 0 ∨ 0x1000 < r.i + w.x + 1) :
    Refuses r w ⟨.write, r.i, w.x + 1⟩
  | load (hw : w.group = 0xF ∧ w.kk = 0x65) (h : r.i < 0 ∨ 0x1000 < r.i + w.x + 1) :
    Refuses r w ⟨.read, r.i, w.x + 1⟩
  | rows (hw : w.group = 0xD) (h : r.i < 0 ∨ 0x1000 < r.i + w.n) :
    Refuses r w ⟨.read, r.i, w.n⟩

theorem Registers.refuses_iff {r : Registers} {w : Word} {f : AccessFault} :
    r.Refuses w f ↔ ∃ op, Opcode.ofWord? w = some op ∧ op.Faults w r (.access f) := by
  have hbcd : Opcode.ofWord? w = some .ldBVx ↔ w.group = 0xF ∧ w.kk = 0x33 :=
    Opcode.ofWord?_eq_some_iff_kk (Or.inr rfl) rfl
  have hstore : Opcode.ofWord? w = some .ldMemVx ↔ w.group = 0xF ∧ w.kk = 0x55 :=
    Opcode.ofWord?_eq_some_iff_kk (Or.inr rfl) rfl
  have hload : Opcode.ofWord? w = some .ldVxMem ↔ w.group = 0xF ∧ w.kk = 0x65 :=
    Opcode.ofWord?_eq_some_iff_kk (Or.inr rfl) rfl
  have hdraw : Opcode.ofWord? w = some .drw ↔ w.group = 0xD := by
    rw [Opcode.ofWord?_eq_some_iff_group rfl]
    exact ⟨fun h => Fin.ext h, fun h => congrArg Fin.val h⟩
  have hrange : ∀ n : Nat, ¬ Memory.InRange r.i n ↔ r.i < 0 ∨ 0x1000 < r.i + n := by
    intro n
    unfold Memory.InRange
    omega
  constructor
  · intro h
    cases h with
    | digits hw hout => exact ⟨_, hbcd.mpr hw, .access rfl ((hrange 3).mpr hout)⟩
    | store hw hout =>
      exact ⟨_, hstore.mpr hw, .access rfl ((hrange (w.x + 1)).mpr (by omega))⟩
    | load hw hout =>
      exact ⟨_, hload.mpr hw, .access rfl ((hrange (w.x + 1)).mpr (by omega))⟩
    | rows hw hout => exact ⟨_, hdraw.mpr hw, .access rfl ((hrange w.n).mpr hout)⟩
  · rintro ⟨op, hop, h⟩
    cases h with
    | access hblock hout =>
      rw [hrange] at hout
      cases op with
      | ldBVx =>
        cases hblock
        exact .digits (hbcd.mp hop) hout
      | ldMemVx =>
        cases hblock
        exact .store (hstore.mp hop) (by omega)
      | ldVxMem =>
        cases hblock
        exact .load (hload.mp hop) (by omega)
      | drw =>
        cases hblock
        exact .rows (hdraw.mp hop) hout
      | _ => cases hblock

namespace Machine

variable {σ : Type} [Surface σ]

theorem step_fault_access_iff {m : Machine σ} {f : AccessFault} :
    m.step.fault? = some (.halt (.access f)) ↔
      ((m.core.regs.pc < 0 ∨ 0xFFE < m.core.regs.pc) ∧ f = ⟨.read, m.core.regs.pc, 2⟩) ∨
      ∃ w, m.core.fetch = .ok w ∧ m.core.regs.Refuses w f := by
  rw [step_fault_iff_halt]
  constructor
  · rintro (⟨f', hfetch, hf⟩ | ⟨w, op, hfetch, hop, h⟩)
    · obtain ⟨hout, rfl⟩ := Core.fetch_eq_error_iff.mp hfetch
      cases hf
      exact Or.inl ⟨by omega, rfl⟩
    · exact Or.inr ⟨w, hfetch, Registers.refuses_iff.mpr ⟨op, hop, h⟩⟩
  · rintro (⟨hout, rfl⟩ | ⟨w, hfetch, h⟩)
    · exact Or.inl ⟨_, Core.fetch_eq_error_iff.mpr ⟨by omega, rfl⟩, rfl⟩
    · obtain ⟨op, hop, hfaults⟩ := Registers.refuses_iff.mp h
      exact Or.inr ⟨w, op, hfetch, hop, hfaults⟩

theorem step_fault_overflow_iff {m : Machine σ} {pc : Int} :
    m.step.fault? = some (.halt (.stack (.overflow pc))) ↔
      pc = m.core.regs.pc ∧ m.core.regs.calls.depth.val = 16 ∧
      ∃ w, m.core.fetch = .ok w ∧ w.group = 0x2 := by
  rw [step_fault_iff_halt]
  constructor
  · rintro (⟨f, _, hf⟩ | ⟨w, op, hfetch, hop, h⟩)
    · cases hf
    · cases h with
      | overflow hfull =>
        exact ⟨rfl, hfull, w, hfetch, Fin.ext ((Opcode.ofWord?_eq_some_iff_group rfl).mp hop)⟩
  · rintro ⟨rfl, hfull, w, hfetch, hcall⟩
    have hop : Opcode.ofWord? w = some .call :=
      (Opcode.ofWord?_eq_some_iff_group rfl).mpr (congrArg Fin.val hcall)
    exact Or.inr ⟨w, .call, hfetch, hop, .overflow hfull⟩

theorem step_fault_underflow_iff {m : Machine σ} {pc : Int} :
    m.step.fault? = some (.halt (.stack (.underflow pc))) ↔
      pc = m.core.regs.pc ∧ m.core.regs.calls.depth.val = 0 ∧ m.core.fetch = .ok 0x00EE := by
  rw [step_fault_iff_halt]
  constructor
  · rintro (⟨f, _, hf⟩ | ⟨w, op, hfetch, hop, h⟩)
    · cases hf
    · cases h with
      | underflow hempty =>
        rw [Opcode.ofWord?_eq_some_ret_iff.mp hop] at hfetch
        exact ⟨rfl, hempty, hfetch⟩
  · rintro ⟨rfl, hempty, hfetch⟩
    exact Or.inr ⟨_, .ret, hfetch, Opcode.ofWord?_eq_some_ret_iff.mpr rfl, .underflow hempty⟩

/-- A surface that always answers never ends a step. -/
theorem step_fault_ne_surface (hσ : Surface.Total σ) (m : Machine σ) (cause : SurfaceFault) :
    m.step.fault? ≠ some (.surface cause) := by
  intro h
  obtain ⟨request, hrefused, -⟩ := ask_of_step_fault h
  obtain ⟨answer, hask⟩ := hσ m.surface request
  rw [hask] at hrefused
  cases hrefused

/-- So a run ends for a reason of its program. -/
theorem runFor_ending (hσ : Surface.Total σ) (n : Nat) :
    ∀ (m : Machine σ) (log : Log), ∃ reason, (runFor n m log).ending = .ok reason := by
  induction n with
  | zero => exact fun _ _ => ⟨.timeout, rfl⟩
  | succ n ih =>
    intro m log
    rw [runFor_succ]
    simp only
    split
    · exact ih _ _
    · exact ⟨_, rfl⟩
    · next cause hfault => exact absurd hfault (step_fault_ne_surface hσ m cause)

/-- What is known of the faults of a machine, by the words that it fetches. -/
structure FaultLaw (m : Machine σ) : Prop where
  /-- A fetch or a block that does not lie inside memory, and nothing else. -/
  access : ∀ f, m.step.fault? = some (.halt (.access f)) ↔
    ((m.core.regs.pc < 0 ∨ 0xFFE < m.core.regs.pc) ∧ f = ⟨.read, m.core.regs.pc, 2⟩) ∨
    ∃ w, m.core.fetch = .ok w ∧ m.core.regs.Refuses w f
  overflow : ∀ pc, m.step.fault? = some (.halt (.stack (.overflow pc))) ↔
    pc = m.core.regs.pc ∧ m.core.regs.calls.depth.val = 16 ∧
    ∃ w, m.core.fetch = .ok w ∧ w.group = 0x2
  underflow : ∀ pc, m.step.fault? = some (.halt (.stack (.underflow pc))) ↔
    pc = m.core.regs.pc ∧ m.core.regs.calls.depth.val = 0 ∧ m.core.fetch = .ok 0x00EE
  no_surface : ∀ cause, m.step.fault? ≠ some (.surface cause)
  /-- The three digits of a register are bytes before they are stored as bytes. -/
  digits : ∀ x, (m.core.regs.get x).decimalDigits.map Byte.toInt =
    [(Alu.bcd (m.core.regs.get x).toInt).1, (Alu.bcd (m.core.regs.get x).toInt).2.1,
      (Alu.bcd (m.core.regs.get x).toInt).2.2]
  run : ∀ limit log, ∃ reason, (m.run limit log).ending = .ok reason

theorem faultLaw (hσ : Surface.Total σ) (m : Machine σ) : m.FaultLaw where
  access _ := step_fault_access_iff
  overflow _ := step_fault_overflow_iff
  underflow _ := step_fault_underflow_iff
  no_surface := step_fault_ne_surface hσ m
  digits x := Byte.toInt_decimalDigits (m.core.regs.get x)
  run limit log := runFor_ending hσ limit.toNat m log

/-- **When a step faults, and with what.** On a recording surface and on a frame buffer with a cell,
whatever the state. -/
theorem step_faults_exactly :
    (∀ m : Machine Recorder, m.FaultLaw) ∧
    ∀ {width height : Nat}, 0 < width → 0 < height →
      ∀ m : Machine (FrameBuffer width height), m.FaultLaw :=
  ⟨faultLaw Recorder.total, fun hw hh => faultLaw (FrameBuffer.total hw hh)⟩

/-- A sprite of no rows, drawn from past the end of memory. -/
def drawPastEnd : Machine (FrameBuffer 8 4) :=
  ⟨{ (ofImage [0xD1, 0x20]).core with regs := { i := 0x1001 } }, {}⟩

theorem drawPastEnd_faults :
    drawPastEnd.step.fault? = some (.halt (.access ⟨.read, 0x1001, 0⟩)) := by
  have hfetch : drawPastEnd.core.fetch = .ok 0xD120 :=
    Core.fetch_eq_ok_iff.mpr ⟨by decide, by decide +kernel⟩
  have hlaw := step_faults_exactly.2 (by decide) (by decide) drawPastEnd
  refine (hlaw.access _).mpr (Or.inr ⟨0xD120, hfetch, ?_⟩)
  exact .rows (by decide) (Or.inr (by decide))

end Machine

end Chip8
