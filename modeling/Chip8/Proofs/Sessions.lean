import Chip8.Machine.Session
import Chip8.Proofs.Stores

/-!
# What a host can do to a core

A host steps and runs a machine, resets it, loads images, stores to memory and sets timers; key events
do not reach the core, and an operation that fails leaves it, but for the steps of a run that ends on a
fault. A property that each of these keeps, and that holds at power-on, holds of every core that a host
can reach (`Core.Kept.reached`).
-/

namespace Chip8

/-- A session starts at power-on, with an image loaded unless it is empty. -/
theorem Session.core_of_create {σ : Type} {s : Session σ} {surface : σ} {random : RandomSource}
    {image : List Byte} {threshold : Int} (h : create surface random image threshold = .ok s) :
    s.machine.core = Core.powerOn random ∨
      ∃ memory, (Core.powerOn random).memory.loadProgram image = .ok memory ∧
        s.machine.core = { Core.powerOn random with memory := memory, regs := {} } := by
  unfold create at h
  obtain ⟨created, hcreated, rfl⟩ := map_eq_ok_iff.mp h
  unfold Machine.create at hcreated
  split at hcreated
  · cases hcreated
    exact Or.inl rfl
  · unfold Machine.load Core.load at hcreated
    obtain ⟨_, hcore, rfl⟩ := map_eq_ok_iff.mp hcreated
    obtain ⟨_, hmemory, rfl⟩ := map_eq_ok_iff.mp hcore
    obtain ⟨memory, hload, rfl⟩ := map_eq_ok_iff.mp hmemory
    exact Or.inr ⟨memory, hload, rfl⟩

namespace Session

variable {σ : Type} (s : Session σ)

/-- The log of a session gets what it would get of a step with its trace. -/
theorem apply_step [Surface σ] [Keyed σ] :
    s.apply .step =
      (⟨s.machine.step.machine, s.log.addAll s.machine.step.records⟩,
        s.machine.step.fault?.elim .done fun cause => .failed (.fault cause)) := by
  obtain ⟨hmachine, hfault, hlog⟩ := s.machine.logsAlike_stepAt s.log.threshold
  unfold apply
  simp only [hmachine, hfault, hlog s.log rfl]
  cases s.machine.step.fault? <;> rfl

theorem machine_apply_step [Surface σ] [Keyed σ] :
    (s.apply .step).1.machine = s.machine.step.machine := by
  rw [apply_step]

/-- A block is stored, or the session stays as it was. -/
theorem store_block (address : Int) (data : List Byte) :
    s.store (.block address data) =
      match s.machine.core.memory.writeBlock address data with
      | .ok stored => (s.withStored stored, .done)
      | .error cause => (s, .failed (.access cause)) := by
  unfold store
  rw [Memory.Store.block_eq, Memory.writeBlock_eq]
  by_cases hin : Memory.InRange address data.length
  · rw [if_pos hin, if_pos hin]
    rfl
  · rw [if_neg hin, if_neg hin]
    rfl

/-- A byte is stored as a block of one. -/
theorem store_byte (address value : Int) :
    s.store (.byte address value) = s.store (.block address [Byte.ofInt value]) := by
  unfold store
  rw [Memory.Store.block_eq, Memory.Store.byte_eq]
  simp only [List.length_singleton, Int.natCast_one, Memory.storeBytes, List.append_nil]

end Session

/-- A property of cores that holds at power-on and that all a host can do keeps. -/
structure Core.Kept (I : Core → Prop) : Prop where
  powerOn : ∀ random, I (Core.powerOn random)
  step : ∀ {c next : Core}, I c → c.StepsTo next → I next
  reset : ∀ {c : Core}, I c → I c.reset
  load : ∀ {c : Core} {image : List Byte} {memory : Memory}, I c →
    c.memory.loadProgram image = .ok memory → I { c with memory := memory, regs := {} }
  store : ∀ {c : Core} {address : Int} {data : List Byte} {stored : Memory.Stored}, I c →
    c.memory.writeBlock address data = .ok stored → I { c with memory := stored.memory }
  setTimers : ∀ {c : Core} (timers : Timers), I c → I { c with timers := timers }

namespace Core.Kept

variable {I : Core → Prop} {σ : Type} {s : Session σ}

theorem loadImage (hI : Kept I) (h : I s.machine.core) (image : List Byte) :
    I (s.loadImage image).1.machine.core := by
  unfold Session.loadImage Machine.load Core.load
  cases hload : s.machine.core.memory.loadProgram image with
  | error e => exact h
  | ok memory => exact hI.load h hload

theorem storeBlock (hI : Kept I) (h : I s.machine.core) (address : Int) (data : List Byte) :
    I (s.store (.block address data)).1.machine.core := by
  rw [Session.store_block]
  cases hstored : s.machine.core.memory.writeBlock address data with
  | error e => exact h
  | ok stored => exact hI.store h hstored

theorem keyEvent (h : I s.machine.core) (surface : Except KeyFault σ) :
    I (s.keyEvent surface).1.machine.core := by
  cases surface with
  | error e => exact h
  | ok surface => exact h

variable [Surface σ] [Keyed σ]

/-- Every host operation keeps the property, also one that fails. -/
theorem apply (hI : Kept I) (h : I s.machine.core) (op : Operation) :
    I (s.apply op).1.machine.core := by
  cases op with
  | step =>
    rw [Session.apply_step]
    exact hI.step h (Machine.stepsTo s.machine)
  | run limit => exact Machine.runFor_induction (fun _ _ => hI.step) limit.toNat s.log h
  | reset => exact hI.reset h
  | load image => exact hI.loadImage h image
  | loadFile files path =>
    unfold Session.apply
    simp only
    cases files.readRom path with
    | error e => exact h
    | ok image => exact hI.loadImage h image
  | pokeByte address value =>
    show I (s.store (.byte address value)).1.machine.core
    rw [Session.store_byte]
    exact hI.storeBlock h address _
  | poke address data => exact hI.storeBlock h address data
  | setDelay value => exact hI.setTimers _ h
  | setSound value => exact hI.setTimers _ h
  | press key => exact keyEvent h _
  | release key => exact keyEvent h _

theorem applyAll (hI : Kept I) (ops : List Operation) :
    ∀ {s : Session σ}, I s.machine.core → I (s.applyAll ops).1.machine.core := by
  induction ops with
  | nil => exact fun h => h
  | cons op ops ih => exact fun h => ih (hI.apply h op)

omit [Surface σ] [Keyed σ] in
theorem create (hI : Kept I) {surface : σ} {random : RandomSource} {image : List Byte}
    {threshold : Int} (h : Session.create surface random image threshold = .ok s) :
    I s.machine.core := by
  rcases Session.core_of_create h with hcore | ⟨memory, hload, hcore⟩
  · rw [hcore]
    exact hI.powerOn random
  · rw [hcore]
    exact hI.load (hI.powerOn random) hload

/-- What is kept holds of every core that a host can reach. -/
theorem reached (hI : Kept I) {surface : σ} {random : RandomSource} {image : List Byte}
    {threshold : Int} (h : Session.create surface random image threshold = .ok s)
    (ops : List Operation) : I (s.applyAll ops).1.machine.core :=
  hI.applyAll ops (hI.create h)

end Core.Kept

end Chip8
