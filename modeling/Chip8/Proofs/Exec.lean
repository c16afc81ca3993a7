import Chip8.Machine
import Chip8.Proofs.CallStack

/-!
# What each instruction makes of a core

`Opcode.exec` gives the effect of an instruction as a whole, with the step to the next instruction in it:
a finished core, or a fault, or a request and how the core goes on with the answer (`Action`). It says
nothing of what a fault leaves. That a handler which faults has changed nothing, and else does what
`Opcode.exec` says, is `Opcode.run_handler`.

* `Opcode.run_handler` — a handler as a whole, with all that it leaves
* `Machine.perform_eq`, `Machine.step_eq` — so for an instruction and for a step
* `Machine.logsAlike_stepAt` — a log gets the same whether or not the step spares its trace
-/

namespace Chip8

/-- The effect of an instruction without a fault: a finished core with the bytes that the font refused, or
a request and what follows its answer. -/
inductive Action
  | done (core : Core) (dropped : List DroppedWrite)
  | ask (request : Request) (resume : request.Reply → Core)

namespace Core

/-- Writes the flag of an operation to VF, then the result to a register. -/
def setFlagged (c : Core) (x : Nibble) (r : Alu.Flagged) : Core :=
  (c.set Registers.flagIndex (if r.flag then 1 else 0)).set x (Byte.ofInt r.result)

/-- Calls a subroutine; the call's own address goes on the stack. -/
def call (c : Core) (target : Int) : Except Halt Core :=
  match c.regs.push c.regs.pc with
  | .ok regs => .ok { c with regs := regs.jump target }
  | .error fault => .error (.stack fault)

/-- Returns to the instruction after the call. -/
def ret (c : Core) : Except Halt Core :=
  match c.regs.pop with
  | .ok (caller, regs) => .ok { c with regs := regs.jump (caller.toNat + 2) }
  | .error fault => .error (.stack fault)

/-- The block at the index register. -/
def readIndexed (c : Core) (count : Nat) : Except Halt (List Byte) :=
  match c.memory.readBlock c.regs.i count with
  | .ok data => .ok data
  | .error fault => .error (.access fault)

/-- Stores a block at the index register. -/
def writeIndexed (c : Core) (data : List Byte) : Except Halt (Core × List DroppedWrite) :=
  match c.memory.writeBlock c.regs.i data with
  | .ok stored => .ok ({ c with memory := stored.memory }, stored.dropped)
  | .error fault => .error (.access fault)

end Core

namespace Opcode

/-- The effect of an instruction with the operands of its word. -/
def exec (op : Opcode) (w : Word) (c : Core) : Except Halt Action :=
  let vx := c.regs.get w.x
  let vy := c.regs.get w.y
  let done (c : Core) : Except Halt Action := .ok (.done c [])
  match op with
  | .cls => .ok (.ask .clear fun _ => c.next)
  | .ret => c.ret.map (.done · [])
  | .jp => done (c.jump w.nnn)
  | .call => (c.call w.nnn).map (.done · [])
  | .jpV0 => done (c.jump (w.nnn + (c.regs.get Registers.offsetIndex).toInt))
  | .seByte => done (c.skipIf (vx == w.kk))
  | .sneByte => done (c.skipIf (vx != w.kk))
  | .seReg => done (c.skipIf (vx == vy))
  | .sneReg => done (c.skipIf (vx != vy))
  | .skp => .ok (.ask (.key vx) fun held => c.skipIf held)
  | .sknp => .ok (.ask (.key vx) fun held => c.skipIf (!held))
  | .ldByte => done (c.set w.x w.kk).next
  | .addByte => done (c.set w.x (Byte.ofInt (Alu.addWrapping vx.toInt w.kk.toInt))).next
  | .ldI => done (c.setIndex w.nnn).next
  | .rnd =>
    let drawn := c.random.next
    done (({ c with random := drawn.2 } : Core).set w.x (drawn.1 &&& w.kk)).next
  | .ldReg => done (c.set w.x vy).next
  | .or => done (c.set w.x (vx ||| vy)).next
  | .and => done (c.set w.x (vx &&& vy)).next
  | .xor => done (c.set w.x (vx ^^^ vy)).next
  | .addReg => done (c.setFlagged w.x (Alu.add8 vx.toInt vy.toInt)).next
  | .sub => done (c.setFlagged w.x (Alu.sub8 vx.toInt vy.toInt)).next
  | .shr => done (c.setFlagged w.x (Alu.shr8 vx.toInt)).next
  | .subn => done (c.setFlagged w.x (Alu.sub8 vy.toInt vx.toInt)).next
  | .shl => done (c.setFlagged w.x (Alu.shl8 vx.toInt)).next
  | .drw => (c.readIndexed w.n).map fun rows =>
      .ask (.draw vx vy rows) fun hit => (c.set Registers.flagIndex (if hit then 1 else 0)).next
  | .ldVxDt => done (c.set w.x c.timers.delay).next
  | .ldVxK => .ok (.ask .anyKey fun
      | some key => (c.set w.x (Byte.ofInt key)).next
      | none => c)
  | .ldDtVx => done ({ c with timers := c.timers.setDelay vx.toInt } : Core).next
  | .ldStVx => done ({ c with timers := c.timers.setSound vx.toInt } : Core).next
  | .addIVx => done (c.setIndex ((c.regs.i + vx.toInt) % 65536)).next
  | .ldFVx => done (c.setIndex (Font.address vx.toInt)).next
  | .ldBVx => (c.writeIndexed vx.decimalDigits).map fun stored =>
      .done stored.1.next stored.2
  | .ldMemVx => (c.writeIndexed (c.regs.upTo w.x)).map fun stored =>
      .done (stored.1.advanceIndex (w.x + 1)).next stored.2
  | .ldVxMem => (c.readIndexed (w.x + 1)).map fun data =>
      .done (({ c with regs := c.regs.load data } : Core).advanceIndex (w.x + 1)).next []

end Opcode

/-! ## Routines -/

namespace Machine

variable {σ : Type}

@[simp] theorem Course.reporting_nil (s : Course σ) : s.reporting [] = s := by
  unfold reporting
  rw [List.append_nil]

namespace Routine

/-- A block is read, or there is a fault and nothing has changed. -/
theorem run_readBlock (count : Nat) (s : Course σ) :
    (readBlock count).run s =
      match s.machine.core.readIndexed count with
      | .ok data => .ok data s
      | .error halt => .error (.halt halt) s := by
  unfold Core.readIndexed
  show (Attempt.ofExcept _).run s = _
  cases s.machine.core.memory.readBlock s.machine.core.regs.i count <;> rfl

/-- A block is stored and what the font refused is reported, or there is a fault and nothing has
changed. -/
theorem run_writeBlock (data : List Byte) (s : Course σ) :
    (writeBlock data).run s =
      match s.machine.core.writeIndexed data with
      | .ok (core, dropped) => .ok () ((s.withCore core).reporting (dropped.map Record.dropped))
      | .error halt => .error (.halt halt) s := by
  unfold Core.writeIndexed
  show (store (.block s.machine.core.regs.i data)).run s = _
  unfold store
  rw [Attempt.run_onPart, Memory.Store.block_eq, Memory.writeBlock_eq]
  by_cases hin : Memory.InRange s.machine.core.regs.i data.length
  · rw [if_pos hin, if_pos hin]
    rfl
  · rw [if_neg hin, if_neg hin]
    exact congrArg _ (Course.reporting_nil s)

theorem run_push (s : Course σ) :
    push.run s =
      match s.machine.core.regs.push s.machine.core.regs.pc with
      | .ok regs => .ok () (s.withCore { s.machine.core with regs := regs })
      | .error fault => .error (.halt (.stack fault)) s := by
  show (onRegs (Registers.pushing s.machine.core.regs.pc)).run s = _
  unfold onRegs
  rw [Attempt.run_onPart, Registers.pushing_eq, Registers.push_eq]
  cases s.machine.core.regs.calls.push? (Word.ofInt s.machine.core.regs.pc) <;> rfl

theorem run_pop (s : Course σ) :
    pop.run s =
      match s.machine.core.regs.pop with
      | .ok (caller, regs) => .ok caller (s.withCore { s.machine.core with regs := regs })
      | .error fault => .error (.halt (.stack fault)) s := by
  unfold pop onRegs
  rw [Attempt.run_onPart, Registers.popping_eq, Registers.pop_eq]
  cases s.machine.core.regs.calls.pop? <;> rfl

theorem run_ask [Surface σ] (r : Request) (s : Course σ) :
    (ask r).run s =
      match (Surface.respond r).run s.machine.surface with
      | .ok reply next => .ok reply (s.withSurface next)
      | .error cause reached => .error (.surface cause) (s.withSurface reached) := by
  unfold ask
  rw [Attempt.run_onPart]
  cases (Surface.respond r).run s.machine.surface <;> rfl

/-- Only the last part of a routine moves on. -/
theorem run_advance_bind {α : Type} (p : Routine σ α) (f : α → Routine σ Bool) (s : Course σ) :
    (advance (p >>= f)).run s = (p >>= fun a => advance (f a)).run s := by
  unfold advance
  rw [bind_assoc]

/-- Looking at the core changes nothing. -/
theorem run_advance_core (f : Core → Routine σ Bool) (s : Course σ) :
    (advance (core >>= f)).run s = (advance (f s.machine.core)).run s := rfl

theorem run_advance_update (f g : Core → Core) (s : Course σ) :
    (advance (do update f; change g)).run s = .ok () (s.withCore (g (f s.machine.core)).next) := rfl

/-- A skip adds two to the two of every step. -/
theorem run_advance_skipIf (condition : Core → Bool) (s : Course σ) :
    (advance (skipIf condition)).run s =
      .ok () (s.withCore (s.machine.core.skipIf (condition s.machine.core))) := by
  have hrun : (skipIf condition).run s =
      .ok false (if condition s.machine.core then s.withCore s.machine.core.next else s) := by
    show EStateM.run (if _ then _ else _) s = _
    cases condition s.machine.core <;> rfl
  unfold advance Core.skipIf
  rw [Attempt.run_bind_ok hrun]
  cases condition s.machine.core with
  | false => rfl
  | true =>
    show EStateM.Result.ok () (s.withCore (s.machine.core.jump (s.machine.core.regs.pc + 2 + 2))) = _
    rw [Int.add_assoc]
    rfl

end Routine

/-! ## Instructions as a whole -/

variable [Surface σ]

/-- What the effect of an instruction makes of a machine at work. A fault of the program leaves all as it
was; a surface that cannot answer leaves what it has made of itself. -/
def Course.take (s : Course σ) : Except Halt Action → EStateM.Result Fault (Course σ) Unit
  | .error halt => .error (.halt halt) s
  | .ok (.done next dropped) => .ok () ((s.withCore next).reporting (dropped.map Record.dropped))
  | .ok (.ask request resume) =>
    match (Surface.respond request).run s.machine.surface with
    | .ok reply next => .ok () ((s.withCore (resume reply)).withSurface next)
    | .error cause reached => .error (.surface cause) (s.withSurface reached)

theorem Course.take_done (s : Course σ) (next : Core) :
    s.take (.ok (.done next [])) = .ok () (s.withCore next) :=
  congrArg _ (reporting_nil _)

theorem Course.take_ask (s : Course σ) (request : Request) (resume : request.Reply → Core) :
    s.take (.ok (.ask request resume)) =
      match (Surface.respond request).run s.machine.surface with
      | .ok reply next => .ok () ((s.withCore (resume reply)).withSurface next)
      | .error cause reached => .error (.surface cause) (s.withSurface reached) := rfl

namespace Routine

/-- What is done with the answer decides how the core goes on. -/
theorem run_advance_ask {request : Request} {f : request.Reply → Routine σ Bool}
    {resume : request.Reply → Core} {s : Course σ}
    (h : ∀ reply surface, (advance (f reply)).run (s.withSurface surface) =
      .ok () ((s.withSurface surface).withCore (resume reply))) :
    (advance (ask request >>= f)).run s = s.take (.ok (.ask request resume)) := by
  have hask := run_ask request s
  rw [run_advance_bind, Course.take_ask]
  cases hreply : (Surface.respond request).run s.machine.surface with
  | ok reply next =>
    rw [hreply] at hask
    exact (Attempt.run_bind_ok hask).trans (h reply next)
  | error cause reached =>
    rw [hreply] at hask
    exact Attempt.run_bind_error hask

theorem run_advance_readBlock {count : Nat} {f : List Byte → Routine σ Bool} {g : List Byte → Action}
    {s : Course σ} (h : ∀ data, (advance (f data)).run s = s.take (.ok (g data))) :
    (advance (readBlock count >>= f)).run s = s.take ((s.machine.core.readIndexed count).map g) := by
  have hread := run_readBlock count s
  rw [run_advance_bind]
  cases hdata : s.machine.core.readIndexed count with
  | ok data =>
    rw [hdata] at hread
    exact (Attempt.run_bind_ok hread).trans (h data)
  | error halt =>
    rw [hdata] at hread
    exact Attempt.run_bind_error hread

theorem run_advance_writeBlock {data : List Byte} {p : Routine σ Bool} {g : Core → Core} {s : Course σ}
    (h : ∀ next : Course σ, (advance p).run next = .ok () (next.withCore (g next.machine.core))) :
    (advance (do writeBlock data; p)).run s =
      s.take ((s.machine.core.writeIndexed data).map fun stored => .done (g stored.1) stored.2) := by
  have hwrite := run_writeBlock data s
  rw [run_advance_bind]
  cases hstored : s.machine.core.writeIndexed data with
  | ok stored =>
    rw [hstored] at hwrite
    exact (Attempt.run_bind_ok hwrite).trans (h _)
  | error halt =>
    rw [hstored] at hwrite
    exact Attempt.run_bind_error hwrite

theorem run_advance_pop {f : Word → Routine σ Bool} {s : Course σ}
    (h : ∀ caller regs, (advance (f caller)).run (s.withCore { s.machine.core with regs := regs }) =
      .ok () (s.withCore { s.machine.core with regs := regs.jump (caller.toNat + 2) })) :
    (advance (pop >>= f)).run s = s.take (s.machine.core.ret.map (.done · [])) := by
  have hpop := run_pop s
  rw [run_advance_bind]
  unfold Core.ret
  cases hcaller : s.machine.core.regs.pop with
  | ok popped =>
    rw [hcaller] at hpop
    exact (Attempt.run_bind_ok hpop).trans ((h _ _).trans (s.take_done _).symm)
  | error fault =>
    rw [hcaller] at hpop
    exact Attempt.run_bind_error hpop

theorem run_advance_push {target : Int} {p : Routine σ Bool} {s : Course σ}
    (h : ∀ regs, (advance p).run (s.withCore { s.machine.core with regs := regs }) =
      .ok () (s.withCore { s.machine.core with regs := regs.jump target })) :
    (advance (do push; p)).run s = s.take ((s.machine.core.call target).map (.done · [])) := by
  have hpush := run_push s
  rw [run_advance_bind]
  unfold Core.call
  cases hregs : s.machine.core.regs.push s.machine.core.regs.pc with
  | ok regs =>
    rw [hregs] at hpush
    exact (Attempt.run_bind_ok hpush).trans ((h _).trans (s.take_done _).symm)
  | error fault =>
    rw [hregs] at hpush
    exact Attempt.run_bind_error hpush

end Routine

end Machine

open Machine Routine in
/-- **A handler as a whole.** With the step to the next instruction it does what `Opcode.exec` says, and
if it faults for the program it has changed nothing. -/
theorem Opcode.run_handler {σ : Type} [Surface σ] (op : Opcode) (w : Word) (s : Course σ) :
    (advance (op.handler w)).run s = s.take (op.exec w s.machine.core) := by
  cases op
  case seByte | sneByte | seReg | sneReg =>
    exact (run_advance_skipIf _ s).trans (s.take_done _).symm
  -- the instructions that ask
  case cls => exact run_advance_ask fun _ _ => rfl
  case skp | sknp =>
    exact (run_advance_core _ s).trans (run_advance_ask fun _ _ => run_advance_skipIf _ _)
  case ldVxK =>
    refine run_advance_ask fun key? surface => ?_
    cases key? with
    | some key => rfl
    | none =>
      -- two back and two forth
      have hback : ∀ c : Core, (c.jump (c.regs.pc - 2)).next = c := by
        intro c
        show { c with regs := { c.regs with pc := c.regs.pc - 2 + 2 } } = c
        rw [Int.sub_add_cancel]
      exact congrArg (fun c => EStateM.Result.ok () ((s.withSurface surface).withCore c)) (hback _)
  -- the instructions that can fault
  case drw =>
    exact (run_advance_core _ s).trans
      (run_advance_readBlock fun _ => run_advance_ask fun _ _ => rfl)
  case ldVxMem =>
    exact run_advance_readBlock fun _ => (run_advance_update _ _ s).trans (s.take_done _).symm
  case ldBVx =>
    exact (run_advance_core _ s).trans (run_advance_writeBlock (g := Core.next) fun _ => rfl)
  case ldMemVx =>
    exact (run_advance_core _ s).trans
      (run_advance_writeBlock (g := fun c => (c.advanceIndex (w.x + 1)).next) fun _ => rfl)
  case ret => exact run_advance_pop fun _ _ => rfl
  case call => exact run_advance_push fun _ => rfl
  all_goals exact (s.take_done _).symm

namespace Machine

variable {σ : Type} [Surface σ]

/-- A performed instruction is traced, and then does what `Opcode.exec` says. -/
theorem perform_eq (op : Opcode) (w : Word) (c : Core) (s : σ) :
    perform op w c s =
      let trace := Record.executed c.regs.pc w op
      match op.exec w c with
      | .error halt => ⟨⟨c, s⟩, [trace], some (.halt halt)⟩
      | .ok (.done next dropped) => ⟨⟨next, s⟩, trace :: dropped.map Record.dropped, none⟩
      | .ok (.ask request resume) =>
        match Surface.ask s request with
        | .error cause => ⟨⟨c, Surface.answered s request⟩, [trace], some (.surface cause)⟩
        | .ok (reply, next) => ⟨⟨resume reply, next⟩, [trace], none⟩ := by
  have hrun : (Routine.perform Level.debug.rank op w).run ⟨⟨c, s⟩, []⟩ =
      (⟨⟨c, s⟩, [.executed c.regs.pc w op]⟩ : Course σ).take (op.exec w c) :=
    op.run_handler w ⟨⟨c, s⟩, [.executed c.regs.pc w op]⟩
  unfold perform Routine.outcome
  rw [hrun]
  rcases op.exec w c with halt | ⟨next, dropped⟩ | ⟨request, resume⟩
  · rfl
  · rfl
  · unfold Course.take Surface.ask Surface.answered Attempt.result Attempt.left
    simp only
    cases (Surface.respond request).run s <;> rfl

/-! ## Steps -/

omit [Surface σ] in
theorem Routine.run_fetch (s : Course σ) :
    Routine.fetch.run s =
      match s.machine.core.fetch with
      | .ok w => .ok w s
      | .error fault => .error (.halt (.access fault)) s := by
  show (Attempt.ofExcept _).run s = _
  cases s.machine.core.fetch <;> rfl

theorem stepAt_eq (m : Machine σ) (threshold : Int) :
    m.stepAt threshold =
      let c := m.core.tick
      match c.fetch with
      | .error fault => ⟨⟨c, m.surface⟩, [], some (.halt (.access fault))⟩
      | .ok w =>
        match Opcode.ofWord? w with
        | none => ⟨⟨c.next, m.surface⟩, [.unsupported c.regs.pc w], none⟩
        | some op => (Routine.perform threshold op w).outcome ⟨c, m.surface⟩ := by
  have hfetch := Routine.run_fetch (⟨⟨m.core.tick, m.surface⟩, []⟩ : Course σ)
  have hstep : (Routine.step threshold).run ⟨m, []⟩ =
      (Routine.fetch >>= Routine.execute threshold).run ⟨⟨m.core.tick, m.surface⟩, []⟩ := rfl
  unfold stepAt Routine.outcome
  rw [hstep]
  cases hw : m.core.tick.fetch with
  | error fault =>
    rw [hw] at hfetch
    rw [Attempt.run_bind_error hfetch]
    simp only [hw]
  | ok w =>
    rw [hw] at hfetch
    rw [Attempt.run_bind_ok hfetch]
    simp only [hw]
    unfold Routine.execute
    cases Opcode.ofWord? w <;> rfl

/-- A step goes by what it fetches. -/
theorem step_eq (m : Machine σ) :
    m.step =
      let c := m.core.tick
      match c.fetch with
      | .error fault => ⟨⟨c, m.surface⟩, [], some (.halt (.access fault))⟩
      | .ok w =>
        match Opcode.ofWord? w with
        | none => ⟨⟨c.next, m.surface⟩, [.unsupported c.regs.pc w], none⟩
        | some op => perform op w c m.surface :=
  m.stepAt_eq Level.debug.rank

/-! ## Spared traces -/

/-- Two outcomes differ at most in records that a log with a threshold refuses. -/
structure Outcome.LogsAlike (threshold : Int) (out out' : Outcome σ) : Prop where
  machine : out.machine = out'.machine
  fault : out.fault? = out'.fault?
  log : ∀ log : Log, log.threshold = threshold → log.addAll out.records = log.addAll out'.records

omit [Surface σ] in
theorem Outcome.LogsAlike.refl (threshold : Int) (out : Outcome σ) : out.LogsAlike threshold out :=
  ⟨rfl, rfl, fun _ _ => rfl⟩

theorem logsAlike_perform (threshold : Int) (op : Opcode) (w : Word) (c : Core) (s : σ) :
    ((Routine.perform threshold op w).outcome ⟨c, s⟩).LogsAlike threshold (perform op w c s) := by
  by_cases hpasses : threshold ≤ Level.debug.rank
  · have hsame : Routine.perform (σ := σ) threshold op w = Routine.perform Level.debug.rank op w := by
      unfold Routine.perform
      rw [if_pos hpasses, if_pos (Int.le_refl _)]
    unfold perform
    rw [hsame]
    exact .refl threshold _
  · have hrun : (Routine.perform threshold op w).run ⟨⟨c, s⟩, []⟩ =
        (⟨⟨c, s⟩, []⟩ : Course σ).take (op.exec w c) := by
      rw [← op.run_handler w ⟨⟨c, s⟩, []⟩]
      unfold Routine.perform
      rw [if_neg hpasses]
    have hspared : ∀ log : Log, log.threshold = threshold → ∀ rs,
        log.addAll (.executed c.regs.pc w op :: rs) = log.addAll rs := by
      intro log hlog rs
      have hrefused : log.add (.executed c.regs.pc w op) = log := by
        unfold Log.add Record.passes
        rw [hlog]
        exact if_neg fun h => hpasses (of_decide_eq_true h)
      show (log.add _).addAll rs = _
      rw [hrefused]
    rw [perform_eq]
    unfold Routine.outcome
    rw [hrun]
    rcases op.exec w c with halt | ⟨next, dropped⟩ | ⟨request, resume⟩
    · exact ⟨rfl, rfl, fun log hlog => (hspared log hlog []).symm⟩
    · exact ⟨rfl, rfl, fun log hlog => (hspared log hlog _).symm⟩
    · unfold Course.take Surface.ask Surface.answered Attempt.result Attempt.left
      simp only
      cases (Surface.respond request).run s with
      | ok reply next => exact ⟨rfl, rfl, fun log hlog => (hspared log hlog []).symm⟩
      | error cause reached => exact ⟨rfl, rfl, fun log hlog => (hspared log hlog []).symm⟩

/-- A step may spare its trace: a log whose threshold the trace would not pass gets the same. -/
theorem logsAlike_stepAt (m : Machine σ) (threshold : Int) :
    (m.stepAt threshold).LogsAlike threshold m.step := by
  rw [stepAt_eq, step_eq]
  simp only
  cases m.core.tick.fetch with
  | error fault => exact .refl threshold _
  | ok w =>
    simp only
    cases Opcode.ofWord? w with
    | none => exact .refl threshold _
    | some op => exact logsAlike_perform threshold op w m.core.tick m.surface

end Machine

end Chip8
