import Chip8.Proofs.Exec

/-!
# What one step can do

A step leaves its core in one of three ways (`Core.StepsTo`): it faults and the core has only ticked,
it steps over a word that is no instruction, or it executes an instruction. What an instruction makes
of a core does not depend on how the surface came to its answer, so `Opcode.Yields` ranges over all
answers, and statements about cores need not mention surfaces.

`Opcode.Ensures` is the way to prove something of all that an instruction yields: one case for each
instruction, with the faults already gone.

* `Machine.step_cases` — what a step does, by what it fetches
* `Machine.stepsTo` — the three ways
* `Machine.core_of_fault`, `Machine.step_of_halt` — what a step leaves that faults
* `Machine.runFor_induction` — what every step keeps, a run keeps
-/

namespace Chip8

theorem map_eq_ok_iff {ε α β : Type} {x : Except ε α} {f : α → β} {b : β} :
    x.map f = .ok b ↔ ∃ a, x = .ok a ∧ f a = b := by
  cases x with
  | error e => simp [Except.map]
  | ok a => simp [Except.map]

/-! ## Operations on registers and cores

A core's operations are records with one field put, so `simp` sees through them. Putting or filling
byte registers stays closed: its proofs only need which fields it leaves.
-/

attribute [simp] Registers.jump Registers.setIndex
attribute [simp] Core.tick Core.jump Core.next Core.skipIf Core.set Core.setIndex Core.setFlagged
  Core.advanceIndex

namespace Registers

variable (r : Registers)

theorem get_set_self (x : Nibble) (b : Byte) : (r.set x b).get x = b := by
  rw [get_set, if_pos rfl]

theorem get_set_of_ne {r : Registers} {x z : Nibble} {b : Byte} (h : z ≠ x) :
    (r.set x b).get z = r.get z := by
  rw [get_set, if_neg h]

@[simp] theorem i_set (x : Nibble) (b : Byte) : (r.set x b).i = r.i := rfl

@[simp] theorem pc_set (x : Nibble) (b : Byte) : (r.set x b).pc = r.pc := rfl

@[simp] theorem calls_set (x : Nibble) (b : Byte) : (r.set x b).calls = r.calls := rfl

@[simp] theorem i_load (data : List Byte) : (r.load data).i = r.i := by
  unfold load
  rfl

@[simp] theorem pc_load (data : List Byte) : (r.load data).pc = r.pc := by
  unfold load
  rfl

@[simp] theorem calls_load (data : List Byte) : (r.load data).calls = r.calls := by
  unfold load
  rfl

end Registers

/-! ## Instructions -/

namespace Opcode

/-- An instruction makes `next` of a core, with some answer of the surface if it asks for one. -/
inductive Yields (op : Opcode) (w : Word) (c : Core) : Core → Prop
  | done {next : Core} {dropped : List DroppedWrite} (h : op.exec w c = .ok (.done next dropped)) :
    Yields op w c next
  | resumed {request : Request} {resume : request.Reply → Core}
    (h : op.exec w c = .ok (.ask request resume)) (reply : request.Reply) :
    Yields op w c (resume reply)

/-- Whatever comes out of an execution without a fault satisfies `P`. -/
def Ensures (P : Core → Prop) : Except Halt Action → Prop
  | .error _ => True
  | .ok (.done next _) => P next
  | .ok (.ask _ resume) => ∀ reply, P (resume reply)

@[elab_as_elim]
theorem Yields.of_ensures {op : Opcode} {w : Word} {c next : Core} {P : Core → Prop}
    (h : op.Yields w c next) (hP : Ensures P (op.exec w c)) : P next := by
  cases h with
  | done h =>
    rw [h] at hP
    exact hP
  | resumed h reply =>
    rw [h] at hP
    exact hP reply

variable {P : Core → Prop} {c : Core}

@[simp] theorem ensures_done {next : Core} {dropped : List DroppedWrite} :
    Ensures P (.ok (.done next dropped)) ↔ P next := Iff.rfl

/-! ### The operations that can fault -/

theorem ensures_readIndexed {count : Nat} {f : List Byte → Action}
    (h : Memory.InRange c.regs.i count →
      Ensures P (.ok (f (c.memory.block c.regs.i.toNat count)))) :
    Ensures P ((c.readIndexed count).map f) := by
  unfold Core.readIndexed Memory.readBlock
  by_cases hin : Memory.InRange c.regs.i count
  · rw [if_pos hin]
    exact h hin
  · rw [if_neg hin]
    trivial

theorem ensures_writeIndexed {data : List Byte} {f : Core × List DroppedWrite → Action}
    (h : Memory.InRange c.regs.i data.length →
      let stored := c.memory.storeBytes c.regs.i.toNat data
      Ensures P (.ok (f ({ c with memory := stored.memory }, stored.dropped)))) :
    Ensures P ((c.writeIndexed data).map f) := by
  unfold Core.writeIndexed
  rw [Memory.writeBlock_eq]
  by_cases hin : Memory.InRange c.regs.i data.length
  · rw [if_pos hin]
    exact h hin
  · rw [if_neg hin]
    trivial

theorem ensures_call {target : Int} {f : Core → Action}
    (h : ∀ calls, c.regs.calls.push? (Word.ofInt c.regs.pc) = some calls →
      Ensures P (.ok (f { c with regs := { c.regs with calls := calls, pc := target } }))) :
    Ensures P ((c.call target).map f) := by
  unfold Core.call
  rw [Registers.push_eq]
  cases hpush : c.regs.calls.push? (Word.ofInt c.regs.pc) with
  | some calls => exact h calls hpush
  | none => trivial

theorem ensures_ret {f : Core → Action}
    (h : ∀ caller calls, c.regs.calls.pop? = some (caller, calls) →
      Ensures P (.ok (f { c with regs := { c.regs with calls := calls, pc := caller.toNat + 2 } }))) :
    Ensures P (c.ret.map f) := by
  unfold Core.ret
  rw [Registers.pop_eq]
  cases hpop : c.regs.calls.pop? with
  | some popped => exact h popped.1 popped.2 hpop
  | none => trivial

end Opcode

/-! ## Steps -/

theorem Memory.inRange_two_iff {a : Int} : InRange a 2 ↔ 0 ≤ a ∧ a ≤ 0xFFE := by
  unfold InRange
  omega

/-- A fetch succeeds with both bytes inside memory, and gives the word that they make. -/
theorem Core.fetch_eq_ok_iff {c : Core} {w : Word} :
    c.fetch = .ok w ↔ (0 ≤ c.regs.pc ∧ c.regs.pc ≤ 0xFFE) ∧
      Word.ofBytes (c.memory.byte c.regs.pc.toNat) (c.memory.byte (c.regs.pc.toNat + 1)) = w := by
  unfold Core.fetch Memory.read16
  rw [← Memory.inRange_two_iff]
  constructor
  · intro h
    split at h
    · next hin => exact ⟨hin, Except.ok.inj h⟩
    · cases h
  · rintro ⟨hin, rfl⟩
    rw [if_pos hin]

/-- A fetch fails with a byte outside memory. -/
theorem Core.fetch_eq_error_iff {c : Core} {f : AccessFault} :
    c.fetch = .error f ↔ ¬ (0 ≤ c.regs.pc ∧ c.regs.pc ≤ 0xFFE) ∧ f = ⟨.read, c.regs.pc, 2⟩ := by
  unfold Core.fetch Memory.read16
  rw [← Memory.inRange_two_iff]
  constructor
  · intro h
    split at h
    · cases h
    · next hout => exact ⟨hout, (Except.error.inj h).symm⟩
  · rintro ⟨hout, rfl⟩
    rw [if_neg hout]

/-- A step makes `next` of a core: it faults, it skips a word that is no instruction, or it executes
an instruction. -/
inductive Core.StepsTo (c : Core) : Core → Prop
  | faulted : StepsTo c c.tick
  | skipped {w : Word} (hfetch : c.fetch = .ok w) (hop : Opcode.ofWord? w = none) :
    StepsTo c c.tick.next
  | executed {w : Word} {op : Opcode} {next : Core} (hfetch : c.fetch = .ok w)
    (hop : Opcode.ofWord? w = some op) (h : op.Yields w c.tick next) : StepsTo c next

namespace Machine

variable {σ : Type} [Surface σ]

/-- A performed instruction faults and leaves the core, or yields a core. -/
theorem perform_cases (op : Opcode) (w : Word) (c : Core) (s : σ) :
    (∃ fault, (perform op w c s).fault? = some fault ∧ (perform op w c s).machine.core = c) ∨
      ((perform op w c s).fault? = none ∧ op.Yields w c (perform op w c s).machine.core) := by
  rw [perform_eq]
  cases hexec : op.exec w c with
  | error halt => exact Or.inl ⟨_, rfl, rfl⟩
  | ok action =>
    cases action with
    | done next dropped => exact Or.inr ⟨rfl, .done hexec⟩
    | ask request resume =>
      simp only
      cases hask : Surface.ask s request with
      | error cause => exact Or.inl ⟨_, rfl, rfl⟩
      | ok answer => exact Or.inr ⟨rfl, .resumed hexec answer.1⟩

/-- A fault of the program comes before the surface is asked. -/
theorem perform_of_halt {op : Opcode} {w : Word} {c : Core} {s : σ} {halt : Halt}
    (h : (perform op w c s).fault? = some (.halt halt)) : (perform op w c s).machine = ⟨c, s⟩ := by
  rw [perform_eq] at h ⊢
  cases hexec : op.exec w c with
  | error halt => rfl
  | ok action =>
    cases action with
    | done next dropped => simp [hexec] at h
    | ask request resume =>
      simp only [hexec] at h
      cases hask : Surface.ask s request <;> simp [hask] at h

/-- A step fails to fetch, skips a word that is no instruction, or performs an instruction. -/
theorem step_cases (m : Machine σ) :
    (∃ f, m.core.fetch = .error f ∧
      m.step = ⟨⟨m.core.tick, m.surface⟩, [], some (.halt (.access f))⟩) ∨
    (∃ w, m.core.fetch = .ok w ∧ Opcode.ofWord? w = none ∧
      m.step = ⟨⟨m.core.tick.next, m.surface⟩, [.unsupported m.core.regs.pc w], none⟩) ∨
    (∃ w op, m.core.fetch = .ok w ∧ Opcode.ofWord? w = some op ∧
      m.step = perform op w m.core.tick m.surface) := by
  -- counting timers and steps does not touch what is fetched
  have htick : m.core.tick.fetch = m.core.fetch := rfl
  rw [step_eq]
  simp only [htick]
  cases hfetch : m.core.fetch with
  | error f => exact Or.inl ⟨f, rfl, rfl⟩
  | ok w =>
    simp only
    cases hop : Opcode.ofWord? w with
    | none => exact Or.inr (Or.inl ⟨w, rfl, hop, rfl⟩)
    | some op => exact Or.inr (Or.inr ⟨w, op, rfl, hop, rfl⟩)

/-- A step performs the instruction of the word that it fetches. -/
theorem step_of_ofWord? {m : Machine σ} {w : Word} {op : Opcode} (hfetch : m.core.fetch = .ok w)
    (hop : Opcode.ofWord? w = some op) : m.step = perform op w m.core.tick m.surface := by
  rcases step_cases m with ⟨f, he, _⟩ | ⟨w', he, hnone, _⟩ | ⟨w', op', he, hsome, hstep⟩
  · rw [hfetch] at he
    cases he
  · rw [hfetch] at he
    cases he
    rw [hop] at hnone
    cases hnone
  · rw [hfetch] at he
    cases he
    rw [hop] at hsome
    cases hsome
    exact hstep

/-- An instruction that needs no surface does not fail on one. -/
theorem step_of_done {m : Machine σ} {w : Word} {op : Opcode} {next : Core}
    {dropped : List DroppedWrite} (hfetch : m.core.fetch = .ok w) (hop : Opcode.ofWord? w = some op)
    (hexec : op.exec w m.core.tick = .ok (.done next dropped)) :
    m.step.fault? = none ∧ m.step.machine = ⟨next, m.surface⟩ := by
  rw [step_of_ofWord? hfetch hop, perform_eq, hexec]
  exact ⟨rfl, rfl⟩

/-- A step that asks and does not fault goes on with the answer. -/
theorem step_of_ask {m : Machine σ} {w : Word} {op : Opcode} {request : Request}
    {resume : request.Reply → Core} (hfetch : m.core.fetch = .ok w) (hop : Opcode.ofWord? w = some op)
    (hexec : op.exec w m.core.tick = .ok (.ask request resume)) (h : m.step.fault? = none) :
    ∃ reply next, Surface.ask m.surface request = .ok (reply, next) ∧
      m.step.machine = ⟨resume reply, next⟩ := by
  rw [step_of_ofWord? hfetch hop, perform_eq] at h ⊢
  simp only [hexec] at h ⊢
  cases hask : Surface.ask m.surface request with
  | error cause => simp [hask] at h
  | ok answer => exact ⟨answer.1, answer.2, rfl, rfl⟩

/-- A step whose request is answered goes on with the answer. -/
theorem step_of_answer {m : Machine σ} {w : Word} {op : Opcode} {request : Request}
    {resume : request.Reply → Core} {reply : request.Reply} {next : σ}
    (hfetch : m.core.fetch = .ok w) (hop : Opcode.ofWord? w = some op)
    (hexec : op.exec w m.core.tick = .ok (.ask request resume))
    (hask : Surface.ask m.surface request = .ok (reply, next)) :
    m.step.fault? = none ∧ m.step.machine = ⟨resume reply, next⟩ := by
  rw [step_of_ofWord? hfetch hop, perform_eq]
  simp only [hexec, hask, and_self]

/-- A step that faults has only counted the timers and itself. -/
theorem core_of_fault {m : Machine σ} {fault : Fault} (h : m.step.fault? = some fault) :
    m.step.machine.core = m.core.tick := by
  rcases step_cases m with ⟨f, _, hstep⟩ | ⟨w, _, _, hstep⟩ | ⟨w, op, _, _, hstep⟩
  · rw [hstep]
  · rw [hstep] at h
    cases h
  · rw [hstep] at h ⊢
    rcases perform_cases op w m.core.tick m.surface with ⟨_, _, hcore⟩ | ⟨hnone, _⟩
    · exact hcore
    · rw [hnone] at h
      cases h

/-- If the program is at fault, the surface has not been asked. -/
theorem step_of_halt {m : Machine σ} {halt : Halt} (h : m.step.fault? = some (.halt halt)) :
    m.step.machine = ⟨m.core.tick, m.surface⟩ := by
  rcases step_cases m with ⟨f, _, hstep⟩ | ⟨w, _, _, hstep⟩ | ⟨w, op, _, _, hstep⟩
  · rw [hstep]
  · rw [hstep] at h
    cases h
  · rw [hstep] at h ⊢
    exact perform_of_halt h

/-- A step that does not fault skips a word that is no instruction, or executes an instruction. -/
theorem step_of_no_fault {m : Machine σ} (h : m.step.fault? = none) :
    ∃ w, m.core.fetch = .ok w ∧
      ((Opcode.ofWord? w = none ∧ m.step.machine = ⟨m.core.tick.next, m.surface⟩) ∨
        ∃ op, Opcode.ofWord? w = some op ∧ op.Yields w m.core.tick m.step.machine.core) := by
  rcases step_cases m with ⟨f, _, hstep⟩ | ⟨w, hfetch, hop, hstep⟩ | ⟨w, op, hfetch, hop, hstep⟩
  · rw [hstep] at h
    cases h
  · exact ⟨w, hfetch, Or.inl ⟨hop, by rw [hstep]⟩⟩
  · rw [hstep] at h ⊢
    rcases perform_cases op w m.core.tick m.surface with ⟨fault, hsome, _⟩ | ⟨_, hyields⟩
    · rw [hsome] at h
      cases h
    · exact ⟨w, hfetch, Or.inr ⟨op, hop, hyields⟩⟩

/-- The three ways in which a step leaves its core. -/
theorem stepsTo (m : Machine σ) : m.core.StepsTo m.step.machine.core := by
  rcases step_cases m with ⟨f, _, hstep⟩ | ⟨w, hfetch, hop, hstep⟩ | ⟨w, op, hfetch, hop, hstep⟩
  · rw [hstep]
    exact .faulted
  · rw [hstep]
    exact .skipped hfetch hop
  · rw [hstep]
    rcases perform_cases op w m.core.tick m.surface with ⟨_, _, hcore⟩ | ⟨_, hyields⟩
    · rw [hcore]
      exact .faulted
    · exact .executed hfetch hop hyields

/-! ## Several steps -/

/-- A machine without a host: an image in a memory that is zero elsewhere. -/
def ofImage (image : List Byte) : Machine Detached :=
  ⟨{ memory := Memory.zeroed.overlay Memory.programStart image, random := .cycle #[] }, .mk⟩

/-- The machine after a number of steps, those that fault included. -/
def after (m : Machine σ) : Nat → Machine σ
  | 0 => m
  | n + 1 => (m.after n).step.machine

/-- A run makes a step with its trace and goes on if it can; what the step spared of its trace the log
would not have taken. -/
theorem runFor_succ (n : Nat) (m : Machine σ) (log : Log) :
    runFor (n + 1) m log =
      let log := log.addAll m.step.records
      match m.step.fault? with
      | none => runFor n m.step.machine log
      | some (.halt cause) =>
        ⟨m.step.machine, log.add (.halted cause m.step.machine.core.regs.dump), .ok cause.reason⟩
      | some (.surface cause) => ⟨m.step.machine, log, .error cause⟩ := by
  obtain ⟨hmachine, hfault, hlog⟩ := logsAlike_stepAt m log.threshold
  rw [runFor]
  rcases hstep : m.step.fault? with _ | cause | cause <;>
    simp only [hmachine, hfault.trans hstep, hlog log rfl]

/-- What every step keeps holds after a run, however it ended. -/
theorem runFor_induction {I : Core → Prop} (hstep : ∀ c next, I c → c.StepsTo next → I next)
    (n : Nat) : ∀ {m : Machine σ} (log : Log), I m.core → I (runFor n m log).machine.core := by
  induction n with
  | zero => exact fun _ h => h
  | succ n ih =>
    intro m log h
    have hnext := hstep _ _ h (stepsTo m)
    rw [runFor_succ]
    simp only
    -- a run that ends on a fault still leaves the machine of its last step
    split
    · exact ih _ hnext
    · exact hnext
    · exact hnext

end Machine

end Chip8
