import Chip8.Proofs.Requests
import Chip8.Surface.Recorder
import Mathlib.Control.Monad.Basic

/-!
# What a machine and its surface say to each other

A step asks the surface at most one thing and gets at most one answer (`Machine.exchange?`). That is all
that a core sees of a surface, and the requests are all that a surface sees of a core
(`Machine.surface_after`). So two machines on two kinds of surface make the same steps as long as they
get the same answers, and a list of the requests is enough to draw a screen again.

* `Machine.step_of_exchange_eq` — one step with the same answer
* `Machine.inLockstep` — any number of steps, the answers compared call by call
* `Machine.surface_independence` — with what it means for a frame buffer and a recorder
-/

namespace Chip8

instance : (r : Request) → DecidableEq r.Reply
  | .clear => inferInstanceAs (DecidableEq Unit)
  | .draw _ _ _ => inferInstanceAs (DecidableEq Bool)
  | .key _ => inferInstanceAs (DecidableEq Bool)
  | .anyKey => inferInstanceAs (DecidableEq (Option Int))

/-- The answer of a surface, without its next state. -/
def Surface.answer {σ : Type} [Surface σ] (s : σ) (r : Request) : Except SurfaceFault r.Reply :=
  (Surface.ask s r).map Prod.fst

/-- A request and the answer to it. -/
structure Exchange where
  request : Request
  answer : Except SurfaceFault request.Reply
deriving DecidableEq

namespace Machine

variable {σ τ : Type} [Surface σ] [Surface τ]

/-- The exchange of the next step, if it asks. -/
def exchange? (m : Machine σ) : Option Exchange :=
  m.core.request?.map fun r => ⟨r, Surface.answer m.surface r⟩

/-- The exchanges of the first steps, in order. -/
def exchanges (m : Machine σ) : Nat → List Exchange
  | 0 => []
  | n + 1 => m.exchanges n ++ (m.after n).exchange?.toList

/-- What the first steps ask, in order. -/
def requests (m : Machine σ) (n : Nat) : List Request := (m.exchanges n).map Exchange.request

/-- Over `n` steps the surfaces answer alike, call by call: where the `j`-th calls of both ask the same,
they are answered the same. -/
def AnsweredAlike (m : Machine σ) (m' : Machine τ) (n : Nat) : Prop :=
  ∀ (j : Nat) (e e' : Exchange), (m.exchanges n)[j]? = some e → (m'.exchanges n)[j]? = some e' →
    e.request = e'.request → e = e'

theorem answeredAlike_of_eq {m : Machine σ} {m' : Machine τ} {n : Nat}
    (h : m.exchanges n = m'.exchanges n) : m.AnsweredAlike m' n := by
  intro j e e' he he' _
  rw [h, he'] at he
  exact (Option.some.inj he).symm

/-! ## Steps -/

/-- The outcomes are the same but for the surfaces. -/
structure Outcome.Matches (out : Outcome σ) (out' : Outcome τ) : Prop where
  core : out.machine.core = out'.machine.core
  records : out.records = out'.records
  fault : out.fault? = out'.fault?

theorem perform_of_answer_eq {op : Opcode} {w : Word} {c : Core} {s : σ} {s' : τ}
    (h : ∀ r, op.request? w c = some r → Surface.answer s r = Surface.answer s' r) :
    (perform op w c s).Matches (perform op w c s') := by
  unfold Opcode.request? at h
  rw [perform_eq, perform_eq]
  cases hexec : op.exec w c with
  | error halt => exact ⟨rfl, rfl, rfl⟩
  | ok action =>
    cases action with
    | done next dropped => exact ⟨rfl, rfl, rfl⟩
    | ask request resume =>
      have hanswer := h request (by rw [hexec])
      unfold Surface.answer at hanswer
      simp only
      -- both surfaces reply, or both refuse for one cause
      cases hask : Surface.ask s request <;> cases hask' : Surface.ask s' request <;>
        rw [hask, hask'] at hanswer
      case error.error =>
        cases hanswer
        exact ⟨rfl, rfl, rfl⟩
      case ok.ok answer answer' =>
        have hreply : answer.1 = answer'.1 := Except.ok.inj hanswer
        exact ⟨congrArg resume hreply, rfl, rfl⟩
      all_goals cases hanswer

/-- One core steps the same on two surfaces that give it the same answer. -/
theorem step_of_exchange_eq {m : Machine σ} {m' : Machine τ} (hcore : m.core = m'.core)
    (h : m.exchange? = m'.exchange?) : m.step.Matches m'.step := by
  obtain ⟨c, s⟩ := m
  obtain ⟨c', s'⟩ := m'
  obtain rfl : c = c' := hcore
  unfold exchange? at h
  rw [step_eq, step_eq]
  simp only
  cases hfetch : c.tick.fetch with
  | error f => exact ⟨rfl, rfl, rfl⟩
  | ok w =>
    simp only
    cases hop : Opcode.ofWord? w with
    | none => exact ⟨rfl, rfl, rfl⟩
    | some op =>
      refine perform_of_answer_eq fun r hr => ?_
      rw [Core.request?_of_ofWord? (c := c) hfetch hop, hr] at h
      simpa using h

/-! ## Several steps -/

variable {m : Machine σ} {m' : Machine τ} {k n : Nat}

theorem exchanges_prefix (m : Machine σ) (h : k ≤ n) : m.exchanges k <+: m.exchanges n := by
  obtain ⟨d, rfl⟩ := Nat.exists_eq_add_of_le h
  induction d with
  | zero => exact List.prefix_rfl
  | succ d ih => exact (ih (Nat.le_add_right k d)).trans (List.prefix_append _ _)

/-- A call has the number of the calls before it. -/
theorem getElem?_exchanges {e : Exchange} (hk : k < n) (he : (m.after k).exchange? = some e) :
    (m.exchanges n)[(m.exchanges k).length]? = some e := by
  obtain ⟨rest, hrest⟩ := m.exchanges_prefix (Nat.succ_le_of_lt hk)
  rw [← hrest, exchanges, he]
  simp

theorem AnsweredAlike.exchange?_eq (h : m.AnsweredAlike m' n) (hk : k < n)
    (hcore : (m.after k).core = (m'.after k).core) (hbefore : m.exchanges k = m'.exchanges k) :
    (m.after k).exchange? = (m'.after k).exchange? := by
  cases hr : (m.after k).core.request? with
  | none =>
    unfold exchange?
    rw [← hcore, hr]
    rfl
  | some r =>
    have he : (m.after k).exchange? = some ⟨r, Surface.answer (m.after k).surface r⟩ := by
      unfold exchange?
      rw [hr]
      rfl
    have he' : (m'.after k).exchange? = some ⟨r, Surface.answer (m'.after k).surface r⟩ := by
      unfold exchange?
      rw [← hcore, hr]
      rfl
    have hj' := getElem?_exchanges hk he'
    rw [← hbefore] at hj'
    rw [he, he', h _ _ _ (getElem?_exchanges hk he) hj' rfl]

/-- With the same answers, the cores and all that was said stay the same. -/
theorem AnsweredAlike.inLockstep (h : m.AnsweredAlike m' n) (hcore : m.core = m'.core) (hk : k ≤ n) :
    (m.after k).core = (m'.after k).core ∧ m.exchanges k = m'.exchanges k := by
  induction k with
  | zero => exact ⟨hcore, rfl⟩
  | succ k ih =>
    obtain ⟨hcores, hbefore⟩ := ih (Nat.le_of_succ_le hk)
    have hnow := h.exchange?_eq hk hcores hbefore
    refine ⟨(step_of_exchange_eq hcores hnow).core, ?_⟩
    rw [exchanges, exchanges, hbefore, hnow]

/-- The requests are all that happens to a surface. -/
theorem surface_after (m : Machine σ) (n : Nat) :
    (m.after n).surface = (m.requests n).foldl Surface.answered m.surface := by
  induction n with
  | zero => rfl
  | succ n ih =>
    have hstep := step_surface (m.after n)
    unfold requests at ih ⊢
    rw [exchanges, List.map_append, List.foldl_append, ← ih]
    refine hstep.trans ?_
    unfold exchange?
    cases (m.after n).core.request? <;> rfl

end Machine

/-! ## Requests seen from the surface -/

/-- The request changes pixels. -/
def Request.paints : Request → Bool
  | .clear => true
  | .draw _ _ _ => true
  | .key _ => false
  | .anyKey => false

/-- A recorder keeps every request. -/
theorem Recorder.requests_foldl (rs : List Request) : ∀ s : Recorder,
    (rs.foldl Surface.answered s).requests.toList = s.requests.toList ++ rs := by
  induction rs with
  | nil => exact fun s => (List.append_nil _).symm
  | cons r rs ih =>
    intro s
    rw [List.foldl_cons, ih]
    show (s.requests.push r).toList ++ rs = _
    rw [Array.toList_push, List.append_assoc]
    rfl

namespace FrameBuffer

variable {width height : Nat}

/-- What a request makes of the pixels depends on the pixels alone. -/
theorem screen_answered_congr {fb fb' : FrameBuffer width height} (h : fb.screen = fb'.screen)
    (r : Request) : (Surface.answered fb r).screen = (Surface.answered fb' r).screen := by
  cases r with
  | clear => rfl
  | draw x y rows =>
    rw [answered_draw, answered_draw, h]
    cases fb'.screen.draw? x.toInt y.toInt (rows.map Byte.toInt) with
    | none => exact h
    | some drawn => rfl
  | key index => exact h
  | anyKey => exact h

theorem screen_answered_of_not_paints {fb : FrameBuffer width height} {r : Request}
    (h : r.paints = false) : (Surface.answered fb r).screen = fb.screen := by
  cases r with
  | clear | draw => cases h
  | key | anyKey => rfl

/-- A screen can be drawn again from the requests that paint, on a frame buffer with any keys. -/
theorem screen_replay (rs : List Request) : ∀ {fb copy : FrameBuffer width height},
    copy.screen = fb.screen →
    ((rs.filter Request.paints).foldl Surface.answered copy).screen =
      (rs.foldl Surface.answered fb).screen := by
  induction rs with
  | nil => exact fun h => h
  | cons r rs ih =>
    intro fb copy h
    rw [List.foldl_cons]
    cases hr : r.paints with
    | true =>
      rw [List.filter_cons_of_pos hr, List.foldl_cons]
      exact ih (screen_answered_congr h r)
    | false =>
      rw [List.filter_cons_of_neg (by simp [hr])]
      exact ih (h.trans (screen_answered_of_not_paints hr).symm)

end FrameBuffer

namespace Machine

/-- **A machine knows its surface by the answers alone.** Two machines that differ in nothing but their
surfaces, and get the same answers call by call, fault at the same steps, ask the same in the same
order and come to the same core. So a recorder beside a frame buffer holds what the frame buffer was
asked, and what of it paints draws the frame buffer's last screen on a copy of the first. -/
theorem surface_independence :
    (∀ {σ τ : Type} [Surface σ] [Surface τ] {m : Machine σ} {m' : Machine τ} {n : Nat},
      m.core = m'.core → m.AnsweredAlike m' n →
      (m.after n).core = (m'.after n).core ∧
      (∀ k < n, (m.after k).step.fault? = (m'.after k).step.fault?) ∧
      m.exchanges n = m'.exchanges n ∧
      (m.after n).surface = (m.requests n).foldl Surface.answered m.surface ∧
      (m'.after n).surface = (m'.requests n).foldl Surface.answered m'.surface) ∧
    ∀ {width height : Nat} {m : Machine (FrameBuffer width height)} {m' : Machine Recorder}
      {n : Nat}, m.core = m'.core → m.AnsweredAlike m' n →
      ∃ asked, (m'.after n).surface.requests.toList = m'.surface.requests.toList ++ asked ∧
        ∀ copy : FrameBuffer width height, copy.screen = m.surface.screen →
          ((asked.filter Request.paints).foldl Surface.answered copy).screen =
            (m.after n).surface.screen := by
  constructor
  · intro σ τ _ _ m m' n hcore h
    obtain ⟨hend, hsaid⟩ := h.inLockstep hcore (Nat.le_refl n)
    refine ⟨hend, fun k hk => ?_, hsaid, surface_after m n, surface_after m' n⟩
    obtain ⟨hcores, hbefore⟩ := h.inLockstep hcore (Nat.le_of_lt hk)
    exact (step_of_exchange_eq hcores (h.exchange?_eq hk hcores hbefore)).fault
  · intro width height m m' n hcore h
    obtain ⟨_, hsaid⟩ := h.inLockstep hcore (Nat.le_refl n)
    have hasked : m.requests n = m'.requests n := congrArg (List.map Exchange.request) hsaid
    refine ⟨m'.requests n, ?_, fun copy hcopy => ?_⟩
    · rw [surface_after, Recorder.requests_foldl]
    · rw [surface_after, hasked]
      exact FrameBuffer.screen_replay _ hcopy

/-- Three rows of the program are drawn at (0, 0), then key 0 is looked at. -/
def drawsItself : Core := (ofImage [0xA2, 0x00, 0xD0, 0x03, 0xE0, 0x9E]).core

theorem drawsItself_replayed :
    let m : Machine (FrameBuffer 8 4) := ⟨drawsItself, {}⟩
    let m' : Machine Recorder := ⟨drawsItself, ⟨none, false, #[]⟩⟩
    m.AnsweredAlike m' 3 ∧ (m.after 3).core.regs = (m'.after 3).core.regs ∧
    (m.after 3).surface.screen.litCount = 6 ∧
    ∃ asked, (m'.after 3).surface.requests.toList = asked ∧ asked.length = 2 ∧
      ((asked.filter Request.paints).foldl Surface.answered ({} : FrameBuffer 8 4)).screen =
        (m.after 3).surface.screen := by
  intro m m'
  have hsaid : m.exchanges 3 = m'.exchanges 3 := by decide +kernel
  have halike := answeredAlike_of_eq hsaid
  have hcore : m.core = m'.core := rfl
  obtain ⟨hcores, -⟩ := surface_independence.1 hcore halike
  obtain ⟨asked, hasked, hreplay⟩ := surface_independence.2 hcore halike
  have hrecorded : (m'.after 3).surface.requests.toList = asked := hasked
  refine ⟨halike, congrArg Core.regs hcores, by decide +kernel, asked, hrecorded, ?_, hreplay {} rfl⟩
  rw [← hrecorded]
  decide +kernel

end Machine

end Chip8
