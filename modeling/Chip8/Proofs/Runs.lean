import Chip8.Proofs.Faults
import Chip8.Proofs.Footprint

/-!
# Runs are steps

A run is a loop with two ways out of it. Seen from outside it is the steps that a host would make one by
one, up to the first that faults, with one more record for that fault (`Machine.RunLaw`). So a run that
uses up its steps can be taken up where it ended, and both parts together are one longer run.

* `Machine.runFor_add` — a run in two parts
* `Machine.runFor_of_steady`, `Machine.runFor_of_halt` — what a run does, by its first fault
* `Machine.run_iterates_step` — both laws
-/

namespace Chip8

theorem Log.addAll_append (log : Log) (rs rs' : List Record) :
    log.addAll (rs ++ rs') = (log.addAll rs).addAll rs' := List.foldl_append

theorem Halt.reason_ne_timeout (halt : Halt) : halt.reason ≠ .timeout := by
  cases halt <;> exact nofun

theorem Core.StepsTo.steps_eq {c next : Core} (h : c.StepsTo next) : next.steps = c.steps + 1 := by
  cases h with
  | faulted => rfl
  | skipped => rfl
  | executed _ _ h => exact h.frame.steps

/-- The bytes that the font refuses an execution. -/
def Opcode.droppedBy : Except Halt Action → List DroppedWrite
  | .ok (.done _ dropped) => dropped
  | .ok (.ask _ _) => []
  | .error _ => []

namespace Machine

variable {σ : Type} [Surface σ] {m : Machine σ}

/-! ## Several steps, seen from outside -/

/-- What the first steps report, in order. -/
def reports (m : Machine σ) : Nat → List Record
  | 0 => []
  | n + 1 => m.reports n ++ (m.after n).step.records

/-- None of the first steps faults. -/
def Steady (m : Machine σ) (n : Nat) : Prop := ∀ j < n, (m.after j).step.fault? = none

instance (m : Machine σ) (n : Nat) : Decidable (m.Steady n) :=
  inferInstanceAs (Decidable (∀ j < n, (m.after j).step.fault? = none))

/-- The fault of the last of `k` steps. -/
def lastFault? (m : Machine σ) : Nat → Option Fault
  | 0 => none
  | k + 1 => (m.after k).step.fault?

/-- The surface never refuses what it is asked, however many steps are made. -/
def Answered (m : Machine σ) : Prop := ∀ k cause, (m.after k).step.fault? ≠ some (.surface cause)

theorem answered_of_total (hσ : Surface.Total σ) (m : Machine σ) : m.Answered :=
  fun k => step_fault_ne_surface hσ (m.after k)

theorem steps_after (m : Machine σ) (n : Nat) : (m.after n).core.steps = m.core.steps + n := by
  induction n with
  | zero => rfl
  | succ n ih =>
    have hstep := (stepsTo (m.after n)).steps_eq
    rw [ih] at hstep
    exact hstep

theorem steady_or_first_fault (m : Machine σ) (n : Nat) :
    m.Steady n ∨ ∃ j < n, m.Steady j ∧ (m.after j).step.fault? ≠ none := by
  induction n with
  | zero => exact Or.inl fun j hj => absurd hj (Nat.not_lt_zero j)
  | succ n ih =>
    rcases ih with hn | ⟨j, hj, hfirst⟩
    · by_cases hfault : (m.after n).step.fault? = none
      · left
        intro j hj
        rcases Nat.lt_succ_iff_lt_or_eq.mp hj with hlt | rfl
        · exact hn j hlt
        · exact hfault
      · exact Or.inr ⟨n, Nat.lt_succ_self n, hn, hfault⟩
    · exact Or.inr ⟨j, Nat.lt_succ_of_lt hj, hfirst⟩

theorem Steady.lastFault?_eq_none {n : Nat} (h : m.Steady n) : m.lastFault? n = none := by
  cases n with
  | zero => rfl
  | succ n => exact h n (Nat.lt_succ_self n)

/-- An instruction is traced, and reports the bytes that the font refused. -/
theorem records_perform (op : Opcode) (w : Word) (c : Core) (s : σ) :
    (perform op w c s).records =
      .executed c.regs.pc w op :: (Opcode.droppedBy (op.exec w c)).map Record.dropped := by
  rw [perform_eq]
  rcases op.exec w c with halt | ⟨next, dropped⟩ | ⟨request, resume⟩
  · rfl
  · rfl
  · dsimp only
    rcases Surface.ask s request with cause | ⟨reply, next⟩ <;> rfl

theorem mem_records_perform {op : Opcode} {w : Word} {c : Core} {s : σ} {r : Record}
    (h : r ∈ (perform op w c s).records) :
    (∃ pc, r = .executed pc w op) ∨ ∃ write, r = .dropped write := by
  rw [records_perform] at h
  rcases List.mem_cons.mp h with rfl | hdropped
  · exact Or.inl ⟨_, rfl⟩
  · obtain ⟨write, _, rfl⟩ := List.mem_map.mp hdropped
    exact Or.inr ⟨write, rfl⟩

/-- A step reports no error; that is left to the run. -/
theorem level_ne_error_of_mem_step {r : Record} (h : r ∈ m.step.records) : r.level ≠ .error := by
  rcases step_cases m with ⟨f, _, hstep⟩ | ⟨w, _, _, hstep⟩ | ⟨w, op, _, _, hstep⟩
  · rw [hstep] at h
    cases h
  · rw [hstep] at h
    obtain rfl := List.mem_singleton.mp h
    exact nofun
  · rw [hstep] at h
    rcases mem_records_perform h with ⟨pc, rfl⟩ | ⟨write, rfl⟩
    · exact nofun
    · exact nofun

theorem level_ne_error_of_mem_reports {n : Nat} {r : Record} (h : r ∈ m.reports n) :
    r.level ≠ .error := by
  induction n with
  | zero => cases h
  | succ n ih =>
    rcases List.mem_append.mp h with hbefore | hlast
    · exact ih hbefore
    · exact level_ne_error_of_mem_step hlast

/-! ## Runs -/

theorem runFor_succ_of_no_fault (h : m.step.fault? = none) (n : Nat) (log : Log) :
    runFor (n + 1) m log = runFor n m.step.machine (log.addAll m.step.records) := by
  rw [runFor_succ]
  simp only [h]

/-- The registers that the last record shows are those before the faulting instruction. -/
theorem runFor_succ_of_halt {halt : Halt} (h : m.step.fault? = some (.halt halt)) (n : Nat) (log : Log) :
    runFor (n + 1) m log =
      ⟨m.step.machine, (log.addAll m.step.records).add (.halted halt m.core.regs.dump),
        .ok halt.reason⟩ := by
  have hregs : m.step.machine.core.regs = m.core.regs := by
    rw [step_of_halt h]
    rfl
  rw [runFor_succ]
  simp only [h, hregs]

theorem runFor_succ_of_refusal {cause : SurfaceFault} (h : m.step.fault? = some (.surface cause))
    (n : Nat) (log : Log) :
    runFor (n + 1) m log = ⟨m.step.machine, log.addAll m.step.records, .error cause⟩ := by
  rw [runFor_succ]
  simp only [h]

/-- A run that uses up its first steps goes on with the others; one that faults does not come to them. -/
theorem runFor_add (a b : Nat) : ∀ (m : Machine σ) (log : Log),
    let first := runFor a m log
    (first.ending = .ok .timeout → runFor (a + b) m log = runFor b first.machine first.log) ∧
    (first.ending ≠ .ok .timeout → runFor (a + b) m log = first) := by
  induction a with
  | zero =>
    intro m log first
    rw [Nat.zero_add]
    exact ⟨fun _ => rfl, fun hne => absurd rfl hne⟩
  | succ a ih =>
    intro m log
    rw [Nat.succ_add]
    cases hfault : m.step.fault? with
    | none =>
      rw [runFor_succ_of_no_fault hfault, runFor_succ_of_no_fault hfault]
      exact ih m.step.machine (log.addAll m.step.records)
    | some fault =>
      cases fault with
      | halt halt =>
        rw [runFor_succ_of_halt hfault, runFor_succ_of_halt hfault]
        exact ⟨fun h => absurd (Except.ok.inj h) halt.reason_ne_timeout, fun _ => rfl⟩
      | surface cause =>
        rw [runFor_succ_of_refusal hfault, runFor_succ_of_refusal hfault]
        exact ⟨nofun, fun _ => rfl⟩

theorem runFor_of_steady {n : Nat} (h : m.Steady n) (log : Log) :
    runFor n m log = ⟨m.after n, log.addAll (m.reports n), .ok .timeout⟩ := by
  induction n with
  | zero => rfl
  | succ n ih =>
    have hn := ih fun j hj => h j (Nat.lt_succ_of_lt hj)
    have hsplit := (runFor_add n 1 m log).1 (by rw [hn])
    rw [hsplit, hn, runFor_succ_of_no_fault (h n (Nat.lt_succ_self n)), ← Log.addAll_append]
    rfl

theorem runFor_of_halt {n j : Nat} {halt : Halt} (hj : j < n) (hsteady : m.Steady j)
    (h : (m.after j).step.fault? = some (.halt halt)) (log : Log) :
    runFor n m log = ⟨m.after (j + 1),
      log.addAll (m.reports (j + 1) ++ [.halted halt (m.after j).core.regs.dump]),
      .ok halt.reason⟩ := by
  have hfirst := runFor_of_steady hsteady log
  obtain ⟨rest, rfl⟩ : ∃ rest, n = j + (rest + 1) := ⟨n - j - 1, by omega⟩
  rw [(runFor_add j (rest + 1) m log).1 (by rw [hfirst]), hfirst, runFor_succ_of_halt h,
    Log.addAll_append, reports, Log.addAll_append]
  rfl

/-- What is known of a run of at most `n` steps that makes `k`. -/
structure RunLaw (m : Machine σ) (n k : Nat) (log : Log) (out : RunOutcome σ) : Prop where
  /-- All steps are made, or those up to the first that faults. -/
  count : (m.Steady n ∧ k = n) ∨
    ∃ j < n, m.Steady j ∧ (m.after j).step.fault? ≠ none ∧ k = j + 1
  machine : out.machine = m.after k
  steps : out.machine.core.steps = m.core.steps + k
  timeout : out.ending = .ok .timeout ↔ m.Steady n
  stackFault : out.ending = .ok .stackFault ↔ ∃ f, m.lastFault? k = some (.halt (.stack f))
  memoryFault : out.ending = .ok .memoryFault ↔ ∃ f, m.lastFault? k = some (.halt (.access f))
  no_error : ∀ r ∈ m.reports k, r.level ≠ .error
  log_of_steady : m.Steady n → out.log = log.addAll (m.reports k)
  /-- A fault is reported by one more record, with the registers before the last step. -/
  log_of_halt : ∀ halt, m.lastFault? k = some (.halt halt) → ∃ r : Record, r.level = .error ∧
    r.message = halt.message ++ " | " ++ (m.after (k - 1)).core.regs.dump.line ∧
    out.log = log.addAll (m.reports k ++ [r])

theorem runLaw_of_steady {n : Nat} (h : m.Steady n) (log : Log) :
    m.RunLaw n n log (runFor n m log) := by
  have hno : ∀ fault, m.lastFault? n ≠ some fault := by
    rw [h.lastFault?_eq_none]
    exact nofun
  rw [runFor_of_steady h]
  exact {
    count := Or.inl ⟨h, rfl⟩
    machine := rfl
    steps := steps_after m n
    timeout := iff_of_true rfl h
    stackFault := iff_of_false nofun fun ⟨_, hlast⟩ => hno _ hlast
    memoryFault := iff_of_false nofun fun ⟨_, hlast⟩ => hno _ hlast
    no_error := fun _ => level_ne_error_of_mem_reports
    log_of_steady := fun _ => rfl
    log_of_halt := fun _ hlast => absurd hlast (hno _) }

theorem runLaw_of_halt {n j : Nat} {halt : Halt} (hj : j < n) (hsteady : m.Steady j)
    (h : (m.after j).step.fault? = some (.halt halt)) (log : Log) :
    m.RunLaw n (j + 1) log (runFor n m log) := by
  have hn : ¬ m.Steady n := by
    intro hn
    rw [hn j hj] at h
    cases h
  have hlast : ∀ halt', m.lastFault? (j + 1) = some (.halt halt') ↔ halt' = halt := by
    intro halt'
    show (m.after j).step.fault? = _ ↔ _
    rw [h, Option.some.injEq, Fault.halt.injEq, eq_comm]
  rw [runFor_of_halt hj hsteady h]
  constructor
  case count => exact Or.inr ⟨j, hj, hsteady, by rw [h]; exact nofun, rfl⟩
  case machine => rfl
  case steps => exact steps_after m (j + 1)
  case timeout => exact iff_of_false (fun he => halt.reason_ne_timeout (Except.ok.inj he)) hn
  case stackFault =>
    simp only [hlast]
    cases halt <;> simp [Halt.reason]
  case memoryFault =>
    simp only [hlast]
    cases halt <;> simp [Halt.reason]
  case no_error => exact fun _ => level_ne_error_of_mem_reports
  case log_of_steady => exact fun h => absurd h hn
  case log_of_halt =>
    intro halt' hhalt
    obtain rfl := (hlast halt').mp hhalt
    exact ⟨.halted halt' (m.after j).core.regs.dump, rfl, rfl, rfl⟩

/-- Where the surface answers whatever it is asked, how many steps a run makes and why it ends does not
depend on the log. -/
theorem exists_runLaw (hm : m.Answered) (n : Nat) : ∃ k reason, ∀ log,
    m.RunLaw n k log (runFor n m log) ∧ (runFor n m log).ending = .ok reason := by
  rcases steady_or_first_fault m n with hsteady | ⟨j, hj, hfirst, hfault⟩
  · exact ⟨n, .timeout, fun log => ⟨runLaw_of_steady hsteady log, by rw [runFor_of_steady hsteady]⟩⟩
  · obtain ⟨fault, h⟩ := Option.ne_none_iff_exists'.mp hfault
    cases fault with
    | halt halt =>
      exact ⟨j + 1, halt.reason, fun log =>
        ⟨runLaw_of_halt hj hfirst h log, by rw [runFor_of_halt hj hfirst h]⟩⟩
    | surface cause => exact absurd h (hm j cause)

/-- **A run is its steps, and runs compose.** Where the surface answers whatever it is asked, a run makes
just the steps that a host would make one by one, up to the first that faults; its ending and its log
tell which fault that was. A run that uses up its steps and a second run after it are one run of both
lengths, and after a fault there is nothing left to run. -/
theorem run_iterates_step (m : Machine σ) (log : Log) :
    (m.Answered → ∀ limit : Int, ∃ k, m.RunLaw limit.toNat k log (m.run limit log)) ∧
    ∀ a b : Int, 0 ≤ a → 0 ≤ b →
      let first := m.run a log
      (first.ending = .ok .timeout → m.run (a + b) log = first.machine.run b first.log) ∧
      (first.ending ≠ .ok .timeout → m.run (a + b) log = first) := by
  constructor
  · intro hm limit
    rcases steady_or_first_fault m limit.toNat with hsteady | ⟨j, hj, hfirst, hfault⟩
    · exact ⟨_, runLaw_of_steady hsteady log⟩
    · obtain ⟨fault, h⟩ := Option.ne_none_iff_exists'.mp hfault
      cases fault with
      | halt halt => exact ⟨_, runLaw_of_halt hj hfirst h log⟩
      | surface cause => exact absurd h (hm j cause)
  · intro a b ha hb
    unfold run
    rw [Int.toNat_add ha hb]
    exact runFor_add a.toNat b.toNat m log

/-- A word at 200 that calls itself, with two slots of the stack left. -/
def callsItself : Machine Recorder :=
  ⟨{ (ofImage [0x22, 0x00]).core with regs := { calls := ⟨CallStack.empty.slots, ⟨14, by decide⟩⟩ } },
    ⟨none, false, #[]⟩⟩

theorem callsItself_runs :
    let log : Log := { threshold := 40 }
    let first := callsItself.run 2 log
    callsItself.Answered ∧ first.ending = .ok .timeout ∧
    callsItself.run (2 + 5) log = first.machine.run 5 first.log ∧
    (callsItself.run 7 log).ending = .ok .stackFault ∧
    (callsItself.run 7 log).machine.core.steps = 3 ∧
    (callsItself.run 7 log).log.records.size = 1 := by
  intro log first
  have hanswered : callsItself.Answered := answered_of_total Recorder.total callsItself
  have hsteady : callsItself.Steady 2 := by decide +kernel
  have hlast : (callsItself.after 2).step.fault? = some (.halt (.stack (.overflow 0x200))) := by
    decide +kernel
  obtain ⟨hruns, hcompose⟩ := run_iterates_step callsItself log
  obtain ⟨_, hshort⟩ := hruns hanswered 2
  have htimeout : first.ending = .ok .timeout := hshort.timeout.mpr hsteady
  have hsplit := (hcompose 2 5 (by decide) (by decide)).1 htimeout
  obtain ⟨k, hlaw⟩ := hruns hanswered 7
  -- the third step is the first that faults
  obtain rfl : k = 3 := by
    rcases hlaw.count with ⟨h, _⟩ | ⟨j, _, hfirst, hfault, rfl⟩
    · cases hlast.symm.trans (h 2 (by decide))
    · rcases Nat.lt_trichotomy j 2 with hlt | rfl | hgt
      · exact absurd (hsteady j hlt) hfault
      · rfl
      · cases hlast.symm.trans (hfirst 2 hgt)
  exact ⟨hanswered, htimeout, hsplit, hlaw.stackFault.mpr ⟨_, hlast⟩, hlaw.steps,
    by decide +kernel⟩

end Machine

end Chip8
