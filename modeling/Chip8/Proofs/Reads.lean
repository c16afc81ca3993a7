import Chip8.Proofs.Patterns
import Chip8.Proofs.Stores
import Chip8.Proofs.TwoRuns
import Chip8.Surface.Recorder

/-!
# The bytes that a step reads

A step reads the two bytes of its word. A drawing also reads its rows, and a load its bytes; no other
instruction reads memory, and a store does not look at what it writes over (`Core.reads`). So machines
whose memories agree wherever the first one reads make the same steps, and their memories go on
agreeing wherever they did.

* `Core.AgreesOn.inStep` — a step does the same to both
* `Machine.unread_bytes_never_matter` — so does every number of steps
-/

namespace Chip8

/-! ## What is read -/

/-- The addresses that an instruction reads besides its own word, with the index register at `i`: the
rows of a drawing, the bytes of a load. A block that does not lie inside memory is not read at all. -/
def Word.operandReads (w : Word) (i : Int) : List Nat :=
  let count : Nat := if w.Fits "Dxyn" then w.n else if w.Fits "Fx65" then w.x + 1 else 0
  if Memory.InRange i count then List.range' i.toNat count else []

/-- The addresses that the next step reads. -/
def Core.reads (c : Core) : List Nat :=
  match c.fetch with
  | .ok w => c.regs.pc.toNat :: (c.regs.pc.toNat + 1) :: w.operandReads c.regs.i
  | .error _ => []

theorem Word.operandReads_draw {w : Word} (hw : w.Fits "Dxyn") {i : Int}
    (hin : Memory.InRange i w.n) : w.operandReads i = List.range' i.toNat w.n := by
  unfold operandReads
  rw [if_pos hw]
  exact if_pos hin

theorem Word.operandReads_load {w : Word} (hw : w.Fits "Fx65") {i : Int}
    (hin : Memory.InRange i (w.x + 1 : Nat)) :
    w.operandReads i = List.range' i.toNat (w.x + 1) := by
  have hdraw : ¬ w.Fits "Dxyn" := by
    intro hdraw
    have hop : Opcode.drw = .ldVxMem := Word.eq_of_fits hdraw hw
    cases hop
  unfold operandReads
  rw [if_neg hdraw, if_pos hw]
  exact if_pos hin

/-! ## Two memories -/

namespace Memory

/-- What the font refuses does not depend on what memory holds. -/
theorem dropped_storeBytes_congr (bs : List Byte) (m m' : Memory) (start : Nat) :
    (m.storeBytes start bs).dropped = (m'.storeBytes start bs).dropped :=
  (dropped_storeBytes bs m start).trans (dropped_storeBytes bs m' start).symm

/-- A store leaves the memories agreeing wherever they did. -/
theorem byte_storeBytes_congr {m m' : Memory} {start : Nat} {bs : List Byte}
    (hfit : start + bs.length ≤ 4096) {a : Nat} (h : m.byte a = m'.byte a) :
    (m.storeBytes start bs).memory.byte a = (m'.storeBytes start bs).memory.byte a := by
  rw [byte_storeBytes bs m start a hfit, byte_storeBytes bs m' start a hfit, h]

end Memory

/-! ## Instructions -/

/-- The cores agree in all but memory, and there at the addresses of `A`. -/
structure Core.AgreesOn (A : Nat → Prop) (c c' : Core) : Prop where
  regs : c.regs = c'.regs
  timers : c.timers = c'.timers
  steps : c.steps = c'.steps
  random : c.random = c'.random
  memory : ∀ a, A a → c.memory.byte a = c'.memory.byte a

section

variable {A : Nat → Prop} {c : Core} {memory : Memory}

theorem Core.readIndexed_congr {count : Nat}
    (h : Memory.InRange c.regs.i count →
      ∀ a ∈ List.range' c.regs.i.toNat count, c.memory.byte a = memory.byte a) :
    ({ c with memory := memory } : Core).readIndexed count = c.readIndexed count := by
  unfold readIndexed Memory.readBlock
  by_cases hin : Memory.InRange c.regs.i count
  · rw [if_pos hin, if_pos hin]
    exact congrArg Except.ok (Memory.block_congr (h hin)).symm
  · rw [if_neg hin, if_neg hin]

namespace Opcode

theorem alike_writeIndexed (hmemory : ∀ a, A a → c.memory.byte a = memory.byte a)
    (data : List Byte) {f : Core × List DroppedWrite → Action}
    (h : ∀ stored stored' dropped, (∀ a, A a → stored.byte a = stored'.byte a) →
      Alike (Core.AgreesOn A) (.ok (f ({ c with memory := stored }, dropped)))
        (.ok (f ({ c with memory := stored' }, dropped)))) :
    Alike (Core.AgreesOn A) ((c.writeIndexed data).map f)
      ((({ c with memory := memory } : Core).writeIndexed data).map f) := by
  rw [Core.map_writeIndexed, Core.map_writeIndexed]
  rw [Memory.writeBlock_eq, Memory.writeBlock_eq]
  by_cases hin : Memory.InRange c.regs.i data.length
  · rw [if_pos hin, if_pos hin]
    show Alike (Core.AgreesOn A)
      (.ok (f (_, (c.memory.storeBytes c.regs.i.toNat data).dropped)))
      (.ok (f (_, (memory.storeBytes c.regs.i.toNat data).dropped)))
    rw [Memory.dropped_storeBytes_congr data memory c.memory]
    exact h _ _ _ fun a ha => Memory.byte_storeBytes_congr hin.toNat_add_le (hmemory a ha)
  · rw [if_neg hin, if_neg hin]
    exact .halted

/-- An instruction makes the same of two memories that agree where it reads. -/
theorem exec_withMemory {op : Opcode} {w : Word} (hop : ofWord? w = some op)
    (hmemory : ∀ a, A a → c.memory.byte a = memory.byte a)
    (hreads : ∀ a ∈ w.operandReads c.regs.i, A a) :
    Alike (Core.AgreesOn A) (op.exec w c) (op.exec w { c with memory := memory }) := by
  have hfits := fits_of_ofWord? hop
  cases op with
  | drw =>
    have hread : ({ c with memory := memory } : Core).readIndexed w.n = c.readIndexed w.n :=
      Core.readIndexed_congr fun hin a ha =>
        hmemory a (hreads a (by rw [Word.operandReads_draw hfits hin]; exact ha))
    unfold exec
    simp only [hread]
    exact .map fun rows => .asked fun _ => ⟨rfl, rfl, rfl, rfl, hmemory⟩
  | ldVxMem =>
    have hread : ({ c with memory := memory } : Core).readIndexed (w.x + 1) =
        c.readIndexed (w.x + 1) :=
      Core.readIndexed_congr fun hin a ha =>
        hmemory a (hreads a (by rw [Word.operandReads_load hfits hin]; exact ha))
    unfold exec
    simp only [hread]
    refine .map fun data => .done ⟨?_, ?_, ?_, ?_, by simpa using hmemory⟩
    all_goals simp
  | ldBVx | ldMemVx =>
    exact alike_writeIndexed hmemory _ fun _ _ _ hstored => .done ⟨rfl, rfl, rfl, rfl, hstored⟩
  | call =>
    unfold exec Core.call
    simp only
    cases c.regs.push c.regs.pc with
    | error fault => exact .halted
    | ok regs => exact .done ⟨rfl, rfl, rfl, rfl, hmemory⟩
  | ret =>
    unfold exec Core.ret
    simp only
    cases c.regs.pop with
    | error fault => exact .halted
    | ok popped => exact .done ⟨rfl, rfl, rfl, rfl, hmemory⟩
  | ldVxK =>
    refine .asked ?_
    rintro (_ | key) <;> exact ⟨rfl, rfl, rfl, rfl, hmemory⟩
  | cls | skp | sknp => exact .asked fun _ => ⟨rfl, rfl, rfl, rfl, hmemory⟩
  | _ => exact .done ⟨rfl, rfl, rfl, rfl, hmemory⟩

end Opcode

end

/-! ## Steps -/

namespace Core

variable {A : Nat → Prop} {c c' : Core}

theorem AgreesOn.eq_withMemory (h : c.AgreesOn A c') : c' = { c with memory := c'.memory } := by
  obtain ⟨hregs, htimers, hsteps, hrandom, -⟩ := h
  simp only [hregs, htimers, hsteps, hrandom]

/-- Both fetch the same word if they agree on its bytes. -/
theorem AgreesOn.fetch (h : c.AgreesOn A c') (hreads : ∀ a ∈ c.reads, A a) :
    c.fetch = c'.fetch := by
  have hpc : c'.regs.pc = c.regs.pc := by rw [h.regs]
  cases hfetch : c.fetch with
  | error f =>
    rw [fetch_eq_error_iff] at hfetch
    rw [eq_comm, fetch_eq_error_iff, hpc]
    exact hfetch
  | ok w =>
    have hagree : ∀ k < 2, c.memory.byte (c.regs.pc.toNat + k) = c'.memory.byte (c.regs.pc.toNat + k) := by
      intro k hk
      refine h.memory _ (hreads _ ?_)
      unfold reads
      rw [hfetch]
      obtain rfl | rfl : k = 0 ∨ k = 1 := by omega
      · exact List.mem_cons_self
      · exact List.mem_cons_of_mem _ List.mem_cons_self
    rw [fetch_eq_ok_iff] at hfetch
    rw [eq_comm, fetch_eq_ok_iff, hpc, ← hagree 1 (by decide)]
    exact ⟨hfetch.1, (congrArg (Word.ofBytes · _) (hagree 0 (by decide)).symm).trans hfetch.2⟩

theorem AgreesOn.inStep (h : c.AgreesOn A c') (hreads : ∀ a ∈ c.reads, A a) :
    c.InStep (AgreesOn A) c' := by
  have hfetch := h.fetch hreads
  have hmemory := h.memory
  rw [h.eq_withMemory] at hfetch ⊢
  refine ⟨rfl, hfetch, ⟨rfl, rfl, rfl, rfl, hmemory⟩, ⟨rfl, rfl, rfl, rfl, hmemory⟩, ?_⟩
  intro w op hw hop
  refine Opcode.exec_withMemory (c := c.tick) hop hmemory fun a ha => hreads a ?_
  unfold reads
  rw [hw]
  exact List.mem_cons_of_mem _ (List.mem_cons_of_mem _ ha)

end Core

namespace Machine

variable {σ : Type} [Surface σ]

/-- The machine with another memory. -/
def withMemory (m : Machine σ) (memory : Memory) : Machine σ :=
  { m with core := { m.core with memory := memory } }

/-- **Bytes that are not read do not matter.** Put another memory into a machine. As long as the first
machine reads only where the two memories agreed at the start, the machines make the same steps: they
ask, report and fault the same, and agree in everything but memory. Their memories still agree
wherever they agreed at the start, even where the program has written. -/
theorem unread_bytes_never_matter (m : Machine σ) (memory : Memory) (n : Nat)
    (hunread : ∀ k < n, ∀ a ∈ (m.after k).core.reads, m.core.memory.byte a = memory.byte a) :
    let now := m.after n
    let now' := (m.withMemory memory).after n
    (now.core.regs = now'.core.regs ∧ now.core.timers = now'.core.timers ∧
      now.core.steps = now'.core.steps ∧ now.core.random = now'.core.random ∧
      now.surface = now'.surface ∧
      ∀ a, m.core.memory.byte a = memory.byte a →
        now.core.memory.byte a = now'.core.memory.byte a) ∧
    ∀ k < n, let step := (m.after k).step
      let step' := ((m.withMemory memory).after k).step
      (m.after k).core.request? = ((m.withMemory memory).after k).core.request? ∧
      step.records = step'.records ∧ step.fault? = step'.fault? := by
  intro now now'
  let A : Nat → Prop := fun a => m.core.memory.byte a = memory.byte a
  have hm : m.Alike (Core.AgreesOn A) (m.withMemory memory) :=
    ⟨⟨rfl, rfl, rfl, rfl, fun _ ha => ha⟩, rfl⟩
  -- the machines agree at every step so far, because the first has read nothing else
  have hagree : ∀ k ≤ n, (m.after k).Alike (Core.AgreesOn A) ((m.withMemory memory).after k) :=
    fun k hk => after_alike hm fun j hj h => h.inStep (hunread j (Nat.lt_of_lt_of_le hj hk))
  constructor
  · obtain ⟨⟨hregs, htimers, hsteps, hrandom, hmemory⟩, hsurface⟩ := hagree n (Nat.le_refl n)
    exact ⟨hregs, htimers, hsteps, hrandom, hsurface, hmemory⟩
  · intro k hk step step'
    have hk' := hagree k (Nat.le_of_lt hk)
    have hin := hk'.core.inStep (hunread k hk)
    have hstep := step_alike hk'.surface hin
    exact ⟨hin.request?, hstep.records, hstep.fault⟩

/-- A store of V0 to 300, and a drawing of one row from 301. -/
def storeThenDraw : Machine Recorder :=
  ⟨(ofImage [0xA3, 0x00, 0xF0, 0x55, 0xD0, 0x01]).core, ⟨none, true, #[]⟩⟩

theorem storeThenDraw_unread :
    let memory := storeThenDraw.core.memory.set 0x300 7
    memory.byte 0x300 ≠ storeThenDraw.core.memory.byte 0x300 ∧
    (∀ k < 3, ∀ a ∈ (storeThenDraw.after k).core.reads,
      storeThenDraw.core.memory.byte a = memory.byte a) ∧
    (storeThenDraw.after 3).core.regs.get 0xF = 1 ∧
    ((storeThenDraw.withMemory memory).after 3).core.regs.get 0xF = 1 := by
  intro memory
  have hunread : ∀ k < 3, ∀ a ∈ (storeThenDraw.after k).core.reads,
      storeThenDraw.core.memory.byte a = memory.byte a := by decide +kernel
  have hhit : (storeThenDraw.after 3).core.regs.get 0xF = 1 := by decide +kernel
  have hregs := (unread_bytes_never_matter storeThenDraw memory 3 hunread).1.1
  exact ⟨by decide +kernel, hunread, hhit, hregs ▸ hhit⟩

end Machine

end Chip8
