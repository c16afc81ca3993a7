import Chip8.Proofs.Requests

/-!
# Two machines side by side

Two machines on equal surfaces, whose cores are related by some `R`. If what each instruction makes of
the one it also makes of the other, up to `R` (`Core.InStep`), then a step asks, reports and faults the
same on both and leaves cores that are related again. The surfaces stay equal, because they are asked
the same.

* `Machine.step_alike` — one step of both
* `Machine.after_alike` — any number of steps; what is needed of a step is asked for step by step, so it
  may rest on what the first machine does
* `Machine.runFor_alike` — a run, with its log and its ending
-/

namespace Chip8

variable {R : Core → Core → Prop}

/-! ## Executions -/

namespace Opcode

/-- Two executions end alike: with one fault, with related cores and the same dropped bytes, or with one
request and cores that are related whatever the reply. -/
inductive Alike (R : Core → Core → Prop) : Except Halt Action → Except Halt Action → Prop
  | halted {halt : Halt} : Alike R (.error halt) (.error halt)
  | done {next next' : Core} {dropped : List DroppedWrite} (h : R next next') :
    Alike R (.ok (.done next dropped)) (.ok (.done next' dropped))
  | asked {request : Request} {resume resume' : request.Reply → Core}
    (h : ∀ reply, R (resume reply) (resume' reply)) :
    Alike R (.ok (.ask request resume)) (.ok (.ask request resume'))

theorem Alike.map {α : Type} {x : Except Halt α} {f g : α → Action}
    (h : ∀ a, Alike R (.ok (f a)) (.ok (g a))) : Alike R (x.map f) (x.map g) := by
  cases x with
  | error halt => exact .halted
  | ok a => exact h a

end Opcode

/-- A store at the index register, with the core taken apart. -/
theorem Core.map_writeIndexed (c : Core) (data : List Byte) (f : Core × List DroppedWrite → Action) :
    (c.writeIndexed data).map f =
      ((c.memory.writeBlock c.regs.i data).mapError Halt.access).map fun stored =>
        f ({ c with memory := stored.memory }, stored.dropped) := by
  unfold writeIndexed
  cases c.memory.writeBlock c.regs.i data <;> rfl

/-- Whatever a step makes of the one core, it makes of the other, up to `R`. -/
structure Core.InStep (R : Core → Core → Prop) (c c' : Core) : Prop where
  pc : c.regs.pc = c'.regs.pc
  fetch : c.fetch = c'.fetch
  tick : R c.tick c'.tick
  next : R c.tick.next c'.tick.next
  exec : ∀ w op, c.fetch = .ok w → Opcode.ofWord? w = some op →
    Opcode.Alike R (op.exec w c.tick) (op.exec w c'.tick)

theorem Core.InStep.request? {c c' : Core} (h : c.InStep R c') : c.request? = c'.request? := by
  cases hfetch : c.fetch with
  | error f =>
    unfold Core.request?
    rw [← h.fetch, hfetch]
  | ok w =>
    have hfetch' : c'.fetch = .ok w := h.fetch.symm.trans hfetch
    cases hop : Opcode.ofWord? w with
    | none =>
      unfold Core.request?
      rw [hfetch, hfetch']
      simp only [hop, Option.bind_none]
    | some op =>
      have hexec := h.exec w op hfetch hop
      rw [request?_of_ofWord? hfetch hop, request?_of_ofWord? hfetch' hop]
      unfold Opcode.request?
      generalize op.exec w c.tick = x at hexec ⊢
      generalize op.exec w c'.tick = x' at hexec ⊢
      cases hexec <;> rfl

namespace Machine

variable {σ : Type} [Surface σ] {m m' : Machine σ}

/-! ## Steps -/

structure Alike (R : Core → Core → Prop) (m m' : Machine σ) : Prop where
  core : R m.core m'.core
  surface : m.surface = m'.surface

structure Outcome.Alike (R : Core → Core → Prop) (out out' : Outcome σ) : Prop where
  machine : out.machine.Alike R out'.machine
  records : out.records = out'.records
  fault : out.fault? = out'.fault?

theorem perform_alike {op : Opcode} {w : Word} {c c' : Core} (hpc : c.regs.pc = c'.regs.pc)
    (hR : R c c') (h : Opcode.Alike R (op.exec w c) (op.exec w c')) (s : σ) :
    (perform op w c s).Alike R (perform op w c' s) := by
  rw [perform_eq, perform_eq, hpc]
  generalize op.exec w c = x at h ⊢
  generalize op.exec w c' = x' at h ⊢
  cases h with
  | halted => exact ⟨⟨hR, rfl⟩, rfl, rfl⟩
  | done hnext => exact ⟨⟨hnext, rfl⟩, rfl, rfl⟩
  | @asked request resume resume' hresume =>
    simp only
    cases Surface.ask s request with
    | error cause => exact ⟨⟨hR, rfl⟩, rfl, rfl⟩
    | ok answer => exact ⟨⟨hresume answer.1, rfl⟩, rfl, rfl⟩

/-- Machines in step make the same step. -/
theorem step_alike (hs : m.surface = m'.surface) (h : m.core.InStep R m'.core) :
    m.step.Alike R m'.step := by
  have hfetch' := h.fetch
  rcases step_cases m with ⟨f, hfetch, hstep⟩ | ⟨w, hfetch, hop, hstep⟩ | ⟨w, op, hfetch, hop, hstep⟩
  all_goals rw [hfetch] at hfetch'
  · rcases step_cases m' with ⟨f', he, hstep'⟩ | ⟨_, he, _⟩ | ⟨_, _, he, _⟩
    · obtain rfl : f = f' := Except.error.inj (hfetch'.trans he)
      rw [hstep, hstep']
      exact ⟨⟨h.tick, hs⟩, rfl, rfl⟩
    · cases hfetch'.trans he
    · cases hfetch'.trans he
  · rcases step_cases m' with ⟨_, he, _⟩ | ⟨w', he, _, hstep'⟩ | ⟨w', _, he, hop', _⟩
    · cases hfetch'.trans he
    · obtain rfl : w = w' := Except.ok.inj (hfetch'.trans he)
      rw [hstep, hstep', h.pc]
      exact ⟨⟨h.next, hs⟩, rfl, rfl⟩
    · obtain rfl : w = w' := Except.ok.inj (hfetch'.trans he)
      cases hop.symm.trans hop'
  · have hpc : m.core.tick.regs.pc = m'.core.tick.regs.pc := h.pc
    rw [hstep, step_of_ofWord? hfetch'.symm hop, hs]
    exact perform_alike hpc h.tick (h.exec w op hfetch hop) m'.surface

/-! ## Several steps -/

theorem after_alike {n : Nat} (h : m.Alike R m')
    (hstep : ∀ k < n, R (m.after k).core (m'.after k).core →
      (m.after k).core.InStep R (m'.after k).core) :
    (m.after n).Alike R (m'.after n) := by
  induction n with
  | zero => exact h
  | succ n ih =>
    have hn := ih fun k hk => hstep k (Nat.lt_succ_of_lt hk)
    exact (step_alike hn.surface (hstep n (Nat.lt_succ_self n) hn.core)).machine

structure RunOutcome.Alike (R : Core → Core → Prop) (out out' : RunOutcome σ) : Prop where
  machine : out.machine.Alike R out'.machine
  log : out.log = out'.log
  ending : out.ending = out'.ending

/-- Machines whose related cores are always in step, and show the same registers, make the same run. -/
theorem runFor_alike (hstep : ∀ {c c' : Core}, R c c' → c.InStep R c')
    (hdump : ∀ {c c' : Core}, R c c' → c.regs.dump = c'.regs.dump) (n : Nat) :
    ∀ {m m' : Machine σ}, m.Alike R m' → ∀ log : Log,
      (runFor n m log).Alike R (runFor n m' log) := by
  induction n with
  | zero => exact fun h log => ⟨h, rfl, rfl⟩
  | succ n ih =>
    intro m m' h log
    obtain ⟨hmachine, hrecords, hfault⟩ := step_alike h.surface (hstep h.core)
    rw [runFor_succ, runFor_succ]
    simp only
    rw [← hrecords, ← hfault]
    -- one fault decides for both runs whether they go on, and with one log
    split
    · exact ih hmachine _
    · rw [hdump hmachine.core]
      exact ⟨hmachine, rfl, rfl⟩
    · exact ⟨hmachine, rfl, rfl⟩

end Machine

end Chip8
