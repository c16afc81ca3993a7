import Chip8.Proofs.CallStack
import Chip8.Proofs.Decode
import Chip8.Proofs.Footprint

/-!
# Calls and their returns

A call opens a frame: the slot at the old depth `d` takes the caller's address. The frame is open as
long as the depth stays above `d`, whatever the program does in between. While it is open nobody
writes its slot or those below it (`CallStack.Open`), so the step that closes it returns to the
instruction after the call.

* `Core.StepsTo.calls_cases` — a step leaves the call stack, pushes its own address, or pops
* `CallStack.Open.step`, `CallStack.Open.close` — an open frame stays open or is returned from
* `Machine.call_matches_return` — the same over any number of steps after a call
-/

namespace Chip8

/-! ## What a step does to the call stack -/

namespace Opcode

variable {w : Word} {c : Core}

theorem ensures_calls_call : Ensures
    (fun next => c.regs.calls.push? (Word.ofInt c.regs.pc) = some next.regs.calls)
    (exec .call w c) :=
  ensures_call fun _ hpush => hpush

theorem ensures_calls_ret : Ensures
    (fun next => ∃ caller, c.regs.calls.pop? = some (caller, next.regs.calls) ∧
      next.regs.pc = caller.toNat + 2)
    (exec .ret w c) :=
  ensures_ret fun caller _ hpop => ⟨caller, hpop, rfl⟩

theorem Yields.calls_cases {op : Opcode} {next : Core} (h : op.Yields w c next) :
    (op = .call ∧ c.regs.calls.push? (Word.ofInt c.regs.pc) = some next.regs.calls) ∨
    (op = .ret ∧ ∃ caller, c.regs.calls.pop? = some (caller, next.regs.calls) ∧
      next.regs.pc = caller.toNat + 2) ∨
    (op ≠ .call ∧ op ≠ .ret ∧ next.regs.calls = c.regs.calls) := by
  by_cases hcall : op = .call
  · subst hcall
    exact Or.inl ⟨rfl, h.of_ensures ensures_calls_call⟩
  · by_cases hret : op = .ret
    · subst hret
      exact Or.inr (Or.inl ⟨rfl, h.of_ensures ensures_calls_ret⟩)
    · exact Or.inr (Or.inr ⟨hcall, hret, h.frame.calls (by simp [hcall, hret])⟩)

end Opcode

/-- A step leaves the call stack as it is, pushes its own address, or returns to the instruction
after the popped address. -/
theorem Core.StepsTo.calls_cases {c next : Core} (h : c.StepsTo next) :
    next.regs.calls = c.regs.calls ∨
    (∃ w, c.fetch = .ok w ∧ w.group = 0x2 ∧
      c.regs.calls.push? (Word.ofInt c.regs.pc) = some next.regs.calls) ∨
    (c.fetch = .ok 0x00EE ∧ ∃ caller, c.regs.calls.pop? = some (caller, next.regs.calls) ∧
      next.regs.pc = caller.toNat + 2) := by
  cases h with
  | faulted => exact Or.inl rfl
  | skipped => exact Or.inl rfl
  | @executed w op next hfetch hop h =>
    rcases h.calls_cases with ⟨rfl, hpush⟩ | ⟨rfl, hpop⟩ | ⟨_, _, hsame⟩
    · have hgroup : w.group = 0x2 := Fin.ext ((Opcode.ofWord?_eq_some_iff_group rfl).mp hop)
      exact Or.inr (Or.inl ⟨w, hfetch, hgroup, hpush⟩)
    · have hw : w = 0x00EE := Opcode.ofWord?_eq_some_ret_iff.mp hop
      exact Or.inr (Or.inr ⟨hw ▸ hfetch, hpop⟩)
    · exact Or.inl hsame

/-! ## Open frames -/

/-- The frame in slot `d` is open: it is live, it holds the caller's address, and the slots below it
are those of the stack that it was pushed on. -/
structure CallStack.Open (base : CallStack) (d : Nibble) (caller : Word) (s : CallStack) : Prop where
  live : d.val < s.depth.val
  slot_eq : s.slot d = caller
  slot_below : ∀ j < d, s.slot j = base.slot j

namespace CallStack.Open

variable {base : CallStack} {d : Nibble} {caller : Word} {c next : Core}

/-- A push at depth `d` opens the frame. -/
theorem of_push {s : CallStack} (h : base.push? caller = some s) (hd : base.depth.val = d.val) :
    Open base d caller s where
  live := by
    rw [depth_push h]
    omega
  slot_eq := by
    rw [slot_push h, if_pos hd.symm]
  slot_below := by
    intro j hj
    have hjd : j.val ≠ base.depth.val := by
      have hlt : j.val < d.val := hj
      omega
    rw [slot_push h, if_neg hjd]

/-- A step that leaves the depth above the frame leaves the frame open. -/
theorem step (ho : Open base d caller c.regs.calls) (h : c.StepsTo next)
    (hne : next.regs.calls.depth.val ≠ d.val) : Open base d caller next.regs.calls := by
  have hlive := ho.live
  rcases h.calls_cases with hsame | ⟨w, _, _, hpush⟩ | ⟨_, a, hpop, _⟩
  · rw [hsame]
    exact ho
  · -- a nested call writes a slot above the frame
    have hslot : ∀ j : Nibble, j ≤ d → next.regs.calls.slot j = c.regs.calls.slot j := by
      intro j hj
      have hle : j.val ≤ d.val := hj
      rw [slot_push hpush, if_neg (by omega)]
    refine ⟨?_, ?_, ?_⟩
    · rw [depth_push hpush]
      omega
    · rw [hslot d (Nat.le_refl _)]
      exact ho.slot_eq
    · intro j hj
      rw [hslot j (Nat.le_of_lt hj)]
      exact ho.slot_below j hj
  · refine ⟨?_, ?_, ?_⟩
    · have hdepth := depth_pop hpop
      omega
    · rw [slot_pop hpop]
      exact ho.slot_eq
    · intro j hj
      rw [slot_pop hpop]
      exact ho.slot_below j hj

/-- A step that brings the depth down to the frame returns to the instruction after the caller. -/
theorem close (ho : Open base d caller c.regs.calls) (h : c.StepsTo next)
    (hd : next.regs.calls.depth.val = d.val) :
    c.fetch = .ok 0x00EE ∧ next.regs.pc = caller.toNat + 2 ∧
      ∀ j < d, next.regs.calls.slot j = base.slot j := by
  have hlive := ho.live
  rcases h.calls_cases with hsame | ⟨w, _, _, hpush⟩ | ⟨hfetch, a, hpop, hpc⟩
  · rw [hsame] at hd
    omega
  · have hdepth := depth_push hpush
    omega
  · refine ⟨hfetch, ?_, ?_⟩
    · rw [hpc, popped_eq_slot hpop hd, ho.slot_eq]
    · intro j hj
      rw [slot_pop hpop]
      exact ho.slot_below j hj

end CallStack.Open

/-! ## Runs -/

namespace Machine

variable {σ : Type} [Surface σ]

/-- The call stack of a machine. -/
abbrev calls (m : Machine σ) : CallStack := m.core.regs.calls

/-- A call with a free slot pushes its own address. -/
theorem push_of_call {m : Machine σ} {w : Word} (hfetch : m.core.fetch = .ok w)
    (hcall : w.group = 0x2) (hfree : m.calls.depth.val < 16) :
    m.calls.push? (Word.ofInt m.core.regs.pc) = some m.step.machine.calls := by
  have hop : Opcode.ofWord? w = some .call :=
    (Opcode.ofWord?_eq_some_iff_group rfl).mpr (congrArg Fin.val hcall)
  obtain ⟨calls, hpush⟩ : ∃ calls, m.calls.push? (Word.ofInt m.core.regs.pc) = some calls := by
    cases hp : m.calls.push? (Word.ofInt m.core.regs.pc) with
    | some calls => exact ⟨calls, rfl⟩
    | none =>
      have hfull := CallStack.push?_eq_none_iff.mp hp
      omega
  have hexec : Opcode.exec .call w m.core.tick = .ok (.done { m.core.tick with
      regs := { m.core.regs with calls := calls, pc := w.nnn } } []) := by
    have htick : m.core.tick.regs = m.core.regs := rfl
    unfold Opcode.exec Core.call
    simp only [Registers.push_eq, htick, hpush]
    rfl
  rw [hpush, step_of_ofWord? hfetch hop, perform_eq, hexec]

/-- After a call the frame is open until the depth comes back to it. -/
theorem open_after_call {m : Machine σ} {w : Word} {d : Nibble} (hfetch : m.core.fetch = .ok w)
    (hcall : w.group = 0x2) (hd : m.calls.depth.val = d.val) (n : Nat)
    (hopen : ∀ k, 0 < k → k ≤ n → (m.step.machine.after k).calls.depth.val ≠ d.val) :
    m.calls.Open d (Word.ofInt m.core.regs.pc) (m.step.machine.after n).calls := by
  induction n with
  | zero =>
    have hfree : m.calls.depth.val < 16 := by
      have hlt := d.isLt
      omega
    exact .of_push (push_of_call hfetch hcall hfree) hd
  | succ n ih =>
    have hn := ih fun k hpos hle => hopen k hpos (Nat.le_succ_of_le hle)
    exact hn.step (stepsTo _) (hopen (n + 1) (Nat.succ_pos n) (Nat.le_refl _))

/-- **A call is matched by its return.** A call at `c` with the depth at `d` and a free slot pushes
`c` to slot `d`. For as many steps as the depth has not come back to `d`, it lies above `d` and the
slots up to `d` are untouched; the step that brings it back executes 00EE, goes on at `c + 2`, and
leaves the slots below `d` as they were before the call. -/
theorem call_matches_return {m : Machine σ} {w : Word} {d : Nibble}
    (hfetch : m.core.fetch = .ok w) (hcall : w.group = 0x2) (hd : m.calls.depth.val = d.val)
    (n : Nat)
    (hopen : ∀ k, 0 < k → k ≤ n → (m.step.machine.after k).calls.depth.val ≠ d.val) :
    let now := m.step.machine.after n
    (d.val < now.calls.depth.val ∧ ((now.calls.slot d).toNat : Int) = m.core.regs.pc ∧
      ∀ j < d, now.calls.slot j = m.calls.slot j) ∧
    (now.step.machine.calls.depth.val = d.val →
      now.core.fetch = .ok 0x00EE ∧ now.step.fault? = none ∧
      now.step.machine.core.regs.pc = m.core.regs.pc + 2 ∧
      ∀ j < d, now.step.machine.calls.slot j = m.calls.slot j) := by
  intro now
  have ho := open_after_call hfetch hcall hd n hopen
  have hpc : ((Word.ofInt m.core.regs.pc).toNat : Int) = m.core.regs.pc := by
    have hin := (Core.fetch_eq_ok_iff.mp hfetch).1
    rw [Word.toNat_ofInt]
    omega
  refine ⟨⟨ho.live, ?_, ho.slot_below⟩, ?_⟩
  · rw [ho.slot_eq]
    exact hpc
  · intro hback
    obtain ⟨hret, hnext, hbelow⟩ := ho.close (stepsTo now) hback
    refine ⟨hret, ?_, ?_, hbelow⟩
    · -- a faulting step would have kept the depth
      cases hfault : now.step.fault? with
      | none => rfl
      | some fault =>
        unfold calls at hback
        rw [core_of_fault hfault] at hback
        have hlive := ho.live
        exact absurd hback (Nat.ne_of_gt hlive)
    · rw [hnext, hpc]

/-- A call to 206, where a second call goes to 20A; both return. -/
def nestedCalls : Machine Detached :=
  .ofImage [0x22, 0x06, 0x00, 0x00, 0x00, 0x00, 0x22, 0x0A, 0x00, 0xEE, 0x00, 0xEE]

theorem nestedCalls_return :
    let now := nestedCalls.step.machine.after 2
    nestedCalls.core.fetch = .ok 0x2206 ∧ nestedCalls.calls.depth.val = 0 ∧
    (∀ k, 0 < k → k ≤ 2 → (nestedCalls.step.machine.after k).calls.depth.val ≠ 0) ∧
    now.step.machine.calls.depth.val = 0 ∧
    ((now.calls.slot 0).toNat : Int) = nestedCalls.core.regs.pc ∧
    now.core.fetch = .ok 0x00EE ∧
    now.step.machine.core.regs.pc = nestedCalls.core.regs.pc + 2 := by
  have hfetch : nestedCalls.core.fetch = .ok 0x2206 :=
    Core.fetch_eq_ok_iff.mpr ⟨by decide, by decide +kernel⟩
  have hopen : ∀ k, 0 < k → k ≤ 2 → (nestedCalls.step.machine.after k).calls.depth.val ≠ 0 := by
    intro k hpos hle
    obtain rfl | rfl : k = 1 ∨ k = 2 := by omega
    · decide +kernel
    · decide +kernel
  have hback : (nestedCalls.step.machine.after 2).step.machine.calls.depth.val = 0 := by
    decide +kernel
  have h := call_matches_return (d := 0) hfetch (by decide) (by decide) 2 hopen
  obtain ⟨hret, _, hpc, _⟩ := h.2 hback
  exact ⟨hfetch, by decide, hopen, hback, h.1.2.1, hret, hpc⟩

end Machine

end Chip8
