import Chip8.FrameBuffer
import Chip8.Proofs.Step

/-!
# What a step asks of the surface

A step asks the surface at most one thing, and the core alone says what (`Core.request?`). All that a
step does to the surface is to put that request to it.

* `Opcode.mem_opcodes_of_request?` — which instruction makes which request
* `Machine.step_surface` — the surface after a step
-/

namespace Chip8

/-- What an instruction asks of the surface, if it gets so far. -/
def Opcode.request? (op : Opcode) (w : Word) (c : Core) : Option Request :=
  match op.exec w c with
  | .ok (.ask request _) => some request
  | _ => none

/-- What the next step asks of the surface. -/
def Core.request? (c : Core) : Option Request :=
  match c.fetch with
  | .ok w => (Opcode.ofWord? w).bind fun op => op.request? w c.tick
  | .error _ => none

theorem Core.request?_of_ofWord? {c : Core} {w : Word} {op : Opcode} (hfetch : c.fetch = .ok w)
    (hop : Opcode.ofWord? w = some op) : c.request? = op.request? w c.tick := by
  unfold request?
  rw [hfetch]
  simp only [hop, Option.bind_some]

theorem Opcode.exec_draw {w : Word} {c : Core} (hin : Memory.InRange c.regs.i w.n) :
    exec .drw w c = .ok (.ask
      (.draw (c.regs.get w.x) (c.regs.get w.y) (c.memory.block c.regs.i.toNat w.n))
      fun hit => (c.set Registers.flagIndex (if hit then 1 else 0)).next) := by
  unfold exec Core.readIndexed Memory.readBlock
  rw [if_pos hin]
  rfl

/-- A drawing hands over the two coordinates and the block of its rows. -/
theorem Core.request?_draw {c : Core} {w : Word} (hfetch : c.fetch = .ok w)
    (hop : Opcode.ofWord? w = some .drw) (hin : Memory.InRange c.regs.i w.n) :
    c.request? = some
      (.draw (c.regs.get w.x) (c.regs.get w.y) (c.memory.block c.regs.i.toNat w.n)) := by
  rw [request?_of_ofWord? hfetch hop]
  unfold Opcode.request?
  rw [Opcode.exec_draw (show Memory.InRange c.tick.regs.i w.n from hin)]
  rfl

/-! ## The instructions that ask -/

/-- The instructions that make a request. -/
def Request.opcodes : Request → List Opcode
  | .clear => [.cls]
  | .draw _ _ _ => [.drw]
  | .key _ => [.skp, .sknp]
  | .anyKey => [.ldVxK]

theorem Opcode.mem_opcodes_of_exec {op : Opcode} {w : Word} {c : Core} {request : Request}
    {resume : request.Reply → Core} (h : op.exec w c = .ok (.ask request resume)) :
    op ∈ request.opcodes := by
  cases op with
  | cls | skp | sknp | ldVxK =>
    cases h
    simp [Request.opcodes]
  | drw =>
    obtain ⟨rows, _, hask⟩ := map_eq_ok_iff.mp h
    cases hask
    simp [Request.opcodes]
  -- a call, a return, a store or a load may fault, but asks nothing
  | call | ret | ldBVx | ldMemVx | ldVxMem =>
    obtain ⟨_, _, hdone⟩ := map_eq_ok_iff.mp h
    cases hdone
  | _ => cases h

theorem Opcode.mem_opcodes_of_request? {op : Opcode} {w : Word} {c : Core} {request : Request}
    (h : op.request? w c = some request) : op ∈ request.opcodes := by
  unfold request? at h
  split at h
  · next hexec =>
    cases h
    exact mem_opcodes_of_exec hexec
  · cases h

namespace FrameBuffer

variable {width height : Nat} {fb : FrameBuffer width height} {request : Request}

theorem answered_draw (fb : FrameBuffer width height) (x y : Byte) (rows : List Byte) :
    Surface.answered fb (.draw x y rows) =
      (fb.screen.draw? x.toInt y.toInt (rows.map Byte.toInt)).elim fb fun drawn =>
        { fb with screen := drawn.screen } := by
  have hdrawing := drawing_eq fb x.toInt y.toInt (rows.map Byte.toInt)
  show (drawing x.toInt y.toInt (rows.map Byte.toInt)).left fb = _
  unfold Attempt.left
  rw [hdrawing]
  cases fb.screen.draw? x.toInt y.toInt (rows.map Byte.toInt) <;> rfl

/-- No request changes which keys are held. -/
theorem keys_answered : (Surface.answered fb request).keys = fb.keys := by
  cases request with
  | draw x y rows =>
    rw [answered_draw]
    cases fb.screen.draw? x.toInt y.toInt (rows.map Byte.toInt) <;> rfl
  | _ => rfl

/-- Only clearing and drawing change pixels. -/
theorem opcodes_of_screen_answered (h : (Surface.answered fb request).screen ≠ fb.screen) :
    ∀ op ∈ request.opcodes, op ∈ [Opcode.cls, .drw] := by
  cases request with
  | clear | draw => simp [Request.opcodes]
  | key | anyKey => exact absurd rfl h

end FrameBuffer

/-! ## Steps -/

namespace Machine

variable {σ : Type} [Surface σ]

theorem perform_surface (op : Opcode) (w : Word) (c : Core) (s : σ) :
    (perform op w c s).machine.surface = (op.request? w c).elim s (Surface.answered s) := by
  rw [perform_eq]
  unfold Opcode.request?
  cases op.exec w c with
  | error halt => rfl
  | ok action =>
    cases action with
    | done next dropped => rfl
    | ask request resume =>
      simp only [Option.elim_some]
      cases hask : Surface.ask s request with
      | error cause => rfl
      | ok answer => exact (Surface.answered_of_ask_ok hask).symm

/-- A step leaves the surface as it is, or puts its request to it. -/
theorem step_surface (m : Machine σ) :
    m.step.machine.surface = m.core.request?.elim m.surface (Surface.answered m.surface) := by
  rcases step_cases m with ⟨f, hfetch, hstep⟩ | ⟨w, hfetch, hop, hstep⟩ | ⟨w, op, hfetch, hop, hstep⟩
  · simp [hstep, Core.request?, hfetch]
  · simp [hstep, Core.request?, hfetch, hop]
  · rw [hstep, perform_surface, Core.request?_of_ofWord? hfetch hop]

end Machine

end Chip8
