import Chip8.Proofs.Sessions

/-!
# Turns

Between any two steps of a program its host may press and release keys. A list of turns is one such
interleaving, and it is played as the operations of a session.

Some steps do nothing but count: the timers count down and the step is counted (`Machine.Idle`). Over
turns whose steps are all like that, the core has only ticked, and the surface has seen nothing but the
key events (`Machine.Idled`).

* `Session.idled_applyAll` — turns with idle steps
* `Session.answer_of_mem_zip` — the answer to one turn among others
-/

namespace Chip8

/-- What happens next at a host: a step, or a key event. -/
inductive Turn
  | step
  | press (key : Int)
  | release (key : Int)
deriving DecidableEq, Repr

/-- The operation of a turn. -/
def Turn.operation : Turn → Operation
  | step => .step
  | press key => .press key
  | release key => .release key

/-- The surface after the key event of a turn; one that refuses the event stays as it is. -/
def Keyed.turned {σ : Type} [Keyed σ] (s : σ) : Turn → σ
  | .step => s
  | .press key => (Keyed.press s key).toOption.getD s
  | .release key => (Keyed.release s key).toOption.getD s

/-! ## Key events -/

/-- A key event leaves the screen of a frame buffer. -/
theorem FrameBuffer.screen_turned {width height : Nat} (turns : List Turn) :
    ∀ fb : FrameBuffer width height, (turns.foldl Keyed.turned fb).screen = fb.screen := by
  induction turns with
  | nil => exact fun _ => rfl
  | cons t turns ih =>
    intro fb
    rw [List.foldl_cons, ih]
    cases t with
    | step => rfl
    | press key =>
      show (((fb.press key).mapError KeyFault.outside).toOption.getD fb).screen = _
      unfold press
      cases fb.keys.press key <;> rfl
    | release key =>
      show (((fb.release key).mapError KeyFault.outside).toOption.getD fb).screen = _
      unfold release
      cases fb.keys.release key <;> rfl

/-- A key event leaves what a recorder has recorded, and how it answers drawings. -/
theorem Recorder.requests_turned (turns : List Turn) : ∀ s : Recorder,
    (turns.foldl Keyed.turned s).requests = s.requests ∧
    (turns.foldl Keyed.turned s).collide = s.collide := by
  induction turns with
  | nil => exact fun _ => ⟨rfl, rfl⟩
  | cons t turns ih =>
    intro s
    obtain ⟨hrequests, hcollide⟩ := ih (Keyed.turned s t)
    rw [List.foldl_cons, hrequests, hcollide]
    cases t <;> exact ⟨rfl, rfl⟩

/-! ## Counting -/

/-- The core `next` is `c` after `n` steps that did nothing but count. -/
structure Core.Ticked (c : Core) (n : Nat) (next : Core) : Prop where
  regs : next.regs = c.regs
  memory : next.memory = c.memory
  random : next.random = c.random
  delay : next.timers.delay.toNat = c.timers.delay.toNat - n
  sound : next.timers.sound.toNat = c.timers.sound.toNat - n
  steps : next.steps = c.steps + n

namespace Core.Ticked

variable {c d e : Core} {a b : Nat}

theorem refl (c : Core) : c.Ticked 0 c := ⟨rfl, rfl, rfl, rfl, rfl, rfl⟩

theorem tick (c : Core) : c.Ticked 1 c.tick :=
  ⟨rfl, rfl, rfl, Timers.toNat_countDown _, Timers.toNat_countDown _, rfl⟩

theorem trans (h : c.Ticked a d) (h' : d.Ticked b e) : c.Ticked (a + b) e where
  regs := h'.regs.trans h.regs
  memory := h'.memory.trans h.memory
  random := h'.random.trans h.random
  delay := by rw [h'.delay, h.delay, Nat.sub_sub]
  sound := by rw [h'.sound, h.sound, Nat.sub_sub]
  steps := by rw [h'.steps, h.steps, Nat.add_assoc]

/-- Counting does not touch what is fetched. -/
theorem fetch (h : c.Ticked a d) : d.fetch = c.fetch := by
  unfold Core.fetch
  rw [h.memory, h.regs]

end Core.Ticked

namespace Machine

variable {σ : Type}

/-- The next step does nothing but count. -/
def Idle [Surface σ] (m : Machine σ) : Prop := m.step.machine = ⟨m.core.tick, m.surface⟩

theorem idle_of_halt [Surface σ] {m : Machine σ} {halt : Halt}
    (h : m.step.fault? = some (.halt halt)) : m.Idle :=
  step_of_halt h

variable [Keyed σ]

/-- The machine `next` is `m` after turns whose steps did nothing but count. -/
structure Idled (m : Machine σ) (turns : List Turn) (next : Machine σ) : Prop where
  core : m.core.Ticked (turns.count .step) next.core
  surface : next.surface = turns.foldl Keyed.turned m.surface

namespace Idled

variable {m m' next : Machine σ} {turns turns' : List Turn}

theorem nil (m : Machine σ) : m.Idled [] m := ⟨.refl _, rfl⟩

theorem append (h : m.Idled turns m') (h' : m'.Idled turns' next) : m.Idled (turns ++ turns') next where
  core := by
    rw [List.count_append]
    exact h.core.trans h'.core
  surface := by
    rw [List.foldl_append, ← h.surface]
    exact h'.surface

end Idled

end Machine

/-! ## Playing turns -/

namespace Session

variable {σ : Type} {s : Session σ}

theorem machine_keyEvent (s : Session σ) (surface : Except KeyFault σ) :
    (s.keyEvent surface).1.machine = ⟨s.machine.core, surface.toOption.getD s.machine.surface⟩ := by
  cases surface <;> rfl

variable [Surface σ] [Keyed σ]

theorem answer_step (s : Session σ) :
    (s.apply .step).2 = s.machine.step.fault?.elim .done fun cause => .failed (.fault cause) := by
  rw [apply_step]

/-- A key event does not reach the core. -/
theorem machine_apply_of_ne_step {t : Turn} (ht : t ≠ .step) :
    (s.apply t.operation).1.machine = ⟨s.machine.core, Keyed.turned s.machine.surface t⟩ := by
  cases t with
  | step => exact absurd rfl ht
  | press key => exact machine_keyEvent s _
  | release key => exact machine_keyEvent s _

theorem idled_apply {t : Turn} (h : t = .step → s.machine.Idle) :
    s.machine.Idled [t] (s.apply t.operation).1.machine := by
  by_cases ht : t = .step
  · subst ht
    have hstep : (s.apply .step).1.machine = ⟨s.machine.core.tick, s.machine.surface⟩ := by
      rw [machine_apply_step]
      exact h rfl
    show s.machine.Idled [.step] (s.apply .step).1.machine
    rw [hstep]
    exact ⟨.tick _, rfl⟩
  · rw [machine_apply_of_ne_step ht]
    have hcount : [t].count .step = 0 := List.count_eq_zero.mpr fun hmem =>
      ht (List.mem_singleton.mp hmem).symm
    exact ⟨by rw [hcount]; exact .refl _, rfl⟩

/-- Turns do nothing but count and change keys, as long as the steps among them are idle. That each is
may be shown from the turns before it having been so. -/
theorem idled_applyAll (turns : List Turn) : ∀ {s : Session σ},
    (∀ before, before ++ [.step] <+: turns →
      s.machine.Idled before (s.applyAll (before.map Turn.operation)).1.machine →
      (s.applyAll (before.map Turn.operation)).1.machine.Idle) →
    s.machine.Idled turns (s.applyAll (turns.map Turn.operation)).1.machine := by
  induction turns with
  | nil => exact fun _ => .nil _
  | cons t turns ih =>
    intro s h
    have hfirst : s.machine.Idled [t] (s.apply t.operation).1.machine :=
      idled_apply fun ht => h [] (by simp [ht]) (.nil _)
    refine hfirst.append (ih fun before hpre hidled => ?_)
    exact h (t :: before) (List.cons_prefix_cons.mpr ⟨rfl, hpre⟩) (hfirst.append hidled)

/-- The answer to a turn is that to its operation after the turns before it. -/
theorem answer_of_mem_zip {turns : List Turn} {t : Turn} {answer : Answer} : ∀ {s : Session σ},
    (t, answer) ∈ turns.zip (s.applyAll (turns.map Turn.operation)).2 →
    ∃ before, before ++ [t] <+: turns ∧
      ((s.applyAll (before.map Turn.operation)).1.apply t.operation).2 = answer := by
  induction turns with
  | nil => exact fun h => absurd h List.not_mem_nil
  | cons first turns ih =>
    intro s h
    rcases List.mem_cons.mp h with heq | hrest
    · obtain ⟨rfl, rfl⟩ := Prod.mk.inj heq
      exact ⟨[], List.cons_prefix_cons.mpr ⟨rfl, List.nil_prefix⟩, rfl⟩
    · obtain ⟨before, hpre, hanswer⟩ := ih hrest
      exact ⟨first :: before, List.cons_prefix_cons.mpr ⟨rfl, hpre⟩, hanswer⟩

end Session

end Chip8
