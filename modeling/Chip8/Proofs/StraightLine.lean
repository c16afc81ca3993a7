import Chip8.Proofs.ProgramCounter
import Chip8.Proofs.Runs

/-!
# Straight-line code ends

Without a return, a jump, a call or a wait, every step moves PC up by a word or two. So it comes to the
end of memory, and the fetch there faults. That needs nothing of the program: what counts is the word
that each step fetches, whatever it was before the program wrote over it.

* `Machine.GoesOn.le_pc` — one step
* `Machine.not_steady_of_no_flow` — one step more than there are words ahead cannot succeed
* `Machine.straight_line_ends` — every machine with a frame buffer
-/

namespace Chip8

/-- The number of words from PC to the end of memory. -/
def Core.wordsAhead (c : Core) : Nat := ((0xFFE - c.regs.pc) / 2).toNat + 1

/-- The words that may go on at any address. -/
def Word.jumping : List String := ["00EE", "1nnn", "2nnn", "Bnnn"]

instance (w : Word) (patterns : List String) : Decidable (w.FitsAny patterns) :=
  inferInstanceAs (Decidable (∃ p ∈ patterns, w.Fits p))

namespace Machine

variable {σ : Type} [Surface σ] {m : Machine σ}

/-- The next step fetches a flow instruction: a return, a jump, a call, or a wait that finds no key. -/
def AtFlow (m : Machine σ) : Prop :=
  ∃ w, m.core.fetch = .ok w ∧ (w.FitsAny Word.jumping ∨
    (w.Fits "Fx0A" ∧ ∃ next, Surface.ask m.surface .anyKey = .ok (none, next)))

instance (s : σ) : Decidable (∃ next, Surface.ask s .anyKey = .ok (none, next)) :=
  match Surface.ask s .anyKey with
  | .ok (none, next) => isTrue ⟨next, rfl⟩
  | .ok (some key, next) => isFalse (by simp)
  | .error cause => isFalse (by simp)

instance (m : Machine σ) : Decidable m.AtFlow :=
  match hfetch : m.core.fetch with
  | .error f => isFalse (by simp [AtFlow, hfetch])
  | .ok w => decidable_of_iff (w.FitsAny Word.jumping ∨
      (w.Fits "Fx0A" ∧ ∃ next, Surface.ask m.surface .anyKey = .ok (none, next)))
      (by simp [AtFlow, hfetch])

/-! ## One step -/

/-- The words that put PC or leave it are flow instructions; the others skip a word or not. -/
theorem GoesOn.le_pc {w : Word} {pc : Int} (h : m.GoesOn w pc) (hfetch : m.core.fetch = .ok w)
    (hflow : ¬ m.AtFlow) : m.core.regs.pc + 2 ≤ pc := by
  have hjump : ∀ p ∈ Word.jumping, ¬ w.Fits p := fun p hp hw =>
    hflow ⟨w, hfetch, Or.inl ⟨p, hp, hw⟩⟩
  by_cases hsteer : w.FitsAny Word.steering
  · obtain ⟨p, hp, hw⟩ := hsteer
    simp only [Word.steering, List.mem_cons, List.not_mem_nil, or_false] at hp
    rcases hp with rfl | rfl | rfl | rfl | rfl | rfl | rfl | rfl | rfl | rfl | rfl
    · exact absurd hw (hjump _ (by decide))
    · exact absurd hw (hjump _ (by decide))
    · exact absurd hw (hjump _ (by decide))
    · exact absurd hw (hjump _ (by decide))
    · obtain ⟨key?, next, hask, hpc⟩ := h.wait hw
      cases key? with
      | none => exact absurd ⟨w, hfetch, Or.inr ⟨hw, next, hask⟩⟩ hflow
      | some key => simp [hpc]
    · rw [h.eqByte hw]
      split <;> omega
    · rw [h.neByte hw]
      split <;> omega
    · rw [h.eqReg hw]
      split <;> omega
    · rw [h.neReg hw]
      split <;> omega
    · obtain ⟨held, _, _, hpc⟩ := h.pressed hw
      rw [hpc]
      split <;> omega
    · obtain ⟨held, _, _, hpc⟩ := h.released hw
      rw [hpc]
      split <;> omega
  · exact Int.le_of_eq (h.other hsteer).symm

theorem le_pc_step (h : m.step.fault? = none) (hflow : ¬ m.AtFlow) :
    m.core.regs.pc + 2 ≤ m.step.machine.core.regs.pc := by
  obtain ⟨w, hfetch, ⟨hop, hstep⟩ | ⟨op, hop, hyields⟩⟩ := step_of_no_fault h
  · rw [hstep]
    exact (goesOn_of_unsupported hop).le_pc hfetch hflow
  · exact (goesOn_of_executed hfetch hop h hyields).le_pc hfetch hflow

/-- Calls and returns are flow instructions, so no other step has a stack fault. -/
theorem access_of_fault (hσ : Surface.Total σ) {fault : Fault} (h : m.step.fault? = some fault)
    (hflow : ¬ m.AtFlow) : ∃ f, fault = .halt (.access f) := by
  rcases fault with halt | cause
  · rcases step_fault_iff_halt.mp h with ⟨f, _, rfl⟩ | ⟨w, op, hfetch, hop, hfaults⟩
    · exact ⟨f, rfl⟩
    · have hw := Opcode.fits_of_ofWord? hop
      cases hfaults with
      | overflow => exact absurd ⟨w, hfetch, Or.inl ⟨_, by decide, hw⟩⟩ hflow
      | underflow => exact absurd ⟨w, hfetch, Or.inl ⟨_, by decide, hw⟩⟩ hflow
      | access => exact ⟨_, rfl⟩
  · exact absurd h (step_fault_ne_surface hσ m cause)

/-! ## Several steps -/

theorem le_pc_after {n : Nat} (h : m.Steady n) (hflow : ∀ j < n, ¬ (m.after j).AtFlow) :
    m.core.regs.pc + 2 * n ≤ (m.after n).core.regs.pc := by
  induction n with
  | zero => simp [after]
  | succ n ih =>
    have hbefore := ih (fun j hj => h j (by omega)) (fun j hj => hflow j (by omega))
    have hstep := le_pc_step (h n (by omega)) (hflow n (by omega))
    rw [after]
    omega

/-- A step for each word ahead leaves nothing to fetch. -/
theorem not_steady_of_no_flow (hflow : ∀ j ≤ m.core.wordsAhead, ¬ (m.after j).AtFlow) :
    ¬ m.Steady (m.core.wordsAhead + 1) := by
  intro hsteady
  have hpc : m.core.regs.pc + 2 * m.core.wordsAhead ≤ (m.after m.core.wordsAhead).core.regs.pc :=
    le_pc_after (fun j hj => hsteady j (by omega)) (fun j hj => hflow j (by omega))
  obtain ⟨w, hfetch, _⟩ := step_of_no_fault (hsteady m.core.wordsAhead (by omega))
  obtain ⟨⟨_, hinside⟩, _⟩ := Core.fetch_eq_ok_iff.mp hfetch
  have hwords : (0xFFE : Int) < m.core.regs.pc + 2 * m.core.wordsAhead := by
    unfold Core.wordsAhead
    omega
  omega

theorem exists_flow_or_access (hσ : Surface.Total σ) (m : Machine σ) :
    ∃ k ≤ m.core.wordsAhead, (m.after k).AtFlow ∨
      ∃ f, (m.after k).step.fault? = some (.halt (.access f)) := by
  by_cases hflow : ∃ k ≤ m.core.wordsAhead, (m.after k).AtFlow
  · obtain ⟨k, hk, hk'⟩ := hflow
    exact ⟨k, hk, Or.inl hk'⟩
  · have hno : ∀ k ≤ m.core.wordsAhead, ¬ (m.after k).AtFlow := fun k hk hk' => hflow ⟨k, hk, hk'⟩
    rcases steady_or_first_fault m (m.core.wordsAhead + 1) with hsteady | ⟨j, hj, _, hfault⟩
    · exact absurd hsteady (not_steady_of_no_flow hno)
    · obtain ⟨fault, hsome⟩ := Option.ne_none_iff_exists'.mp hfault
      obtain ⟨f, rfl⟩ := access_of_fault hσ hsome (hno j (by omega))
      exact ⟨j, by omega, Or.inr ⟨f, hsome⟩⟩

/-- A run ends for its first fault, and all that it needs is that its own steps fetch no flow
instruction. -/
theorem run_of_no_flow (hσ : Surface.Total σ) {limit : Int} (hlimit : m.core.wordsAhead + 1 ≤ limit)
    {log : Log} {out : RunOutcome σ} (hout : m.run limit log = out)
    (hflow : ∀ j, m.core.steps + j < out.machine.core.steps → ¬ (m.after j).AtFlow) :
    out.ending = .ok .memoryFault ∧
    out.machine.core.steps ≤ m.core.steps + m.core.wordsAhead + 1 := by
  subst hout
  unfold run at hflow ⊢
  rcases steady_or_first_fault m limit.toNat with hsteady | ⟨j, hj, hfirst, hfault⟩
  · have hmade := (runLaw_of_steady hsteady log).steps
    exact absurd (fun i hi => hsteady i (by omega))
      (not_steady_of_no_flow fun i hi => hflow i (by omega))
  · obtain ⟨fault, hsome⟩ := Option.ne_none_iff_exists'.mp hfault
    rcases fault with halt | cause
    · have hlaw := runLaw_of_halt hj hfirst hsome log
      have hmade := hlaw.steps
      obtain ⟨f, hf⟩ := access_of_fault hσ hsome (hflow j (by omega))
      obtain rfl := Fault.halt.inj hf
      refine ⟨hlaw.memoryFault.mpr ⟨f, hsome⟩, ?_⟩
      have hj' : ¬ m.core.wordsAhead < j := fun hlt =>
        not_steady_of_no_flow (fun i hi => hflow i (by omega)) fun i hi => hfirst i (by omega)
      omega
    · exact absurd hsome (step_fault_ne_surface hσ (m.after j) cause)

variable {width height : Nat}

/-- **Straight-line code ends.** Let `B` be the number of words from PC to the end of memory. Whatever
memory holds, one of the first `B + 1` steps fetches a flow instruction or has a memory fault. So a run
that has at least `B + 1` steps to make, and makes none that fetches a flow instruction, ends for a memory
fault within them. -/
theorem straight_line_ends (hw : 0 < width) (hh : 0 < height)
    (m : Machine (FrameBuffer width height)) :
    (∃ k, k < m.core.wordsAhead + 1 ∧ ((m.after k).AtFlow ∨
      ∃ f, (m.after k).step.fault? = some (.halt (.access f)))) ∧
    ∀ (limit : Int) (log : Log), m.core.wordsAhead + 1 ≤ limit →
      let out := m.run limit log
      (∀ j, m.core.steps + j < out.machine.core.steps → ¬ (m.after j).AtFlow) →
      out.ending = .ok .memoryFault ∧
      out.machine.core.steps ≤ m.core.steps + (m.core.wordsAhead + 1) := by
  have hσ : Surface.Total (FrameBuffer width height) := FrameBuffer.total hw hh
  constructor
  · obtain ⟨k, hk, hstop⟩ := exists_flow_or_access hσ m
    exact ⟨k, Nat.lt_succ_of_le hk, hstop⟩
  · intro limit log hlimit out hflow
    exact run_of_no_flow hσ hlimit rfl hflow

/-- PC stands at an odd address in a memory of zeros, where no word is an instruction. -/
def oddZeros : Machine (FrameBuffer 8 4) :=
  ⟨{ regs := { pc := 0xFFD }, memory := Memory.zeroed, random := .cycle #[] }, {}⟩

theorem oddZeros_ends :
    0 < 8 ∧ 0 < 4 ∧ oddZeros.core.wordsAhead = 1 ∧
    ∃ out, oddZeros.run 9 { threshold := 30 } = out ∧
      (∀ j, 0 + j < out.machine.core.steps → ¬ (oddZeros.after j).AtFlow) ∧
      out.ending = .ok .memoryFault ∧ out.machine.core.steps ≤ 2 := by
  have hsteps : (oddZeros.run 9 { threshold := 30 }).machine.core.steps = 2 := by decide +kernel
  have htwo : ∀ j < 2, ¬ (oddZeros.after j).AtFlow := by decide +kernel
  have hflow : ∀ j, 0 + j < (oddZeros.run 9 { threshold := 30 }).machine.core.steps →
      ¬ (oddZeros.after j).AtFlow := fun j hj => htwo j (by omega)
  obtain ⟨_, hruns⟩ := straight_line_ends (by decide) (by decide) oddZeros
  obtain ⟨hending, hbound⟩ := hruns 9 { threshold := 30 } (by decide) hflow
  exact ⟨by decide, by decide, by decide, _, rfl, hflow, hending, hbound⟩

end Machine

end Chip8
