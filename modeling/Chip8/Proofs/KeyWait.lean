import Chip8.Proofs.Effects
import Chip8.Proofs.Latest
import Chip8.Proofs.Turns
import Mathlib.Data.List.OfFn

/-!
# Waiting for a key

The word `Fx0A` waits for a key by not moving on: as long as no key is held, a step leaves the program
counter where it is, and the next one asks again. Meanwhile the host presses and releases keys. A key
counts as held if it was pressed last, and steps have no say in that, whatever they execute.

* `Session.reports_applyAll` — what the keypad answers after any turns
* `Session.idled_of_unanswered` — the wait
* `Session.key_wait` — with the step that takes a key
-/

namespace Chip8

/-! ## Which keys are held -/

/-- What a turn makes of a key: held, let go, or nothing. -/
def Turn.puts? (i : Nibble) : Turn → Option Bool
  | step => none
  | press key => if key = i.val then some true else none
  | release key => if key = i.val then some false else none

namespace Keypad

/-- The key is held. -/
def holds (p : Keypad) (i : Nibble) : Bool := p.held.get i

/-- After some turns, a key is held that was pressed last, or was held at the start and not touched. -/
def HeldAfter (start : Keypad) (turns : List Turn) (i : Nibble) : Prop :=
  (latest? (Turn.puts? i) turns).getD (start.holds i) = true

instance (start : Keypad) (turns : List Turn) (i : Nibble) : Decidable (start.HeldAfter turns i) :=
  inferInstanceAs (Decidable (_ = true))

/-- The keypad answers that some keys are held and no other. -/
structure Reports (keys : Keypad) (held : Nibble → Prop) : Prop where
  isHeld (k : Int) : keys.isHeld k = true ↔ ∃ i : Nibble, k = i.val ∧ held i
  lowest?_none : keys.lowest? = none ↔ ∀ i, ¬ held i
  lowest?_some (i : Nibble) : keys.lowest? = some i ↔ held i ∧ ∀ j, held j → i ≤ j

theorem lowest?_eq_some_iff {p : Keypad} {i : Nibble} :
    p.lowest? = some i ↔ p.holds i = true ∧ ∀ j : Nibble, p.holds j = true → i ≤ j := by
  have hleast := List.find?_ofFn_eq_some_of_injective (p := p.holds) (i := i)
    (Function.injective_id (α := Nibble))
  refine hleast.trans (and_congr_right fun _ => ⟨fun h j hj => ?_, fun h j hj hheld => ?_⟩)
  · exact Nat.le_of_not_lt fun hlt => h j hlt hj
  · exact absurd (h j hheld) (Nat.not_le.mpr hj)

theorem isHeld_eq_true_iff {p : Keypad} {k : Int} :
    p.isHeld k = true ↔ ∃ i : Nibble, k = i.val ∧ p.holds i = true := by
  unfold isHeld
  cases hkey : key? k with
  | none =>
    simp only [Bool.false_eq_true, false_iff]
    rintro ⟨i, hk, -⟩
    rw [key?_eq_some_iff.mpr hk] at hkey
    cases hkey
  | some i =>
    have hk := key?_eq_some_iff.mp hkey
    constructor
    · exact fun h => ⟨i, hk, h⟩
    · rintro ⟨j, hj, hheld⟩
      obtain rfl : i = j := by
        rw [key?_eq_some_iff.mpr hj] at hkey
        exact (Option.some.inj hkey).symm
      exact hheld

theorem reports (p : Keypad) : p.Reports (fun i => p.holds i = true) where
  isHeld _ := isHeld_eq_true_iff
  lowest?_none :=
    lowest?_eq_none_iff.trans (forall_congr' fun _ => Iff.of_eq (Bool.not_eq_true _).symm)
  lowest?_some _ := lowest?_eq_some_iff

/-- The keypad with a key put, if there is such a key. -/
def put (p : Keypad) (k : Int) (down : Bool) : Keypad := (key? k).elim p (p.mark · down)

theorem holds_put (p : Keypad) (k : Int) (down : Bool) (i : Nibble) :
    (p.put k down).holds i = (if k = i.val then some down else none).getD (p.holds i) := by
  unfold put
  cases hkey : key? k with
  | none =>
    have hne : k ≠ i.val := fun hk => by
      rw [key?_eq_some_iff.mpr hk] at hkey
      cases hkey
    rw [if_neg hne]
    rfl
  | some j =>
    have hk := key?_eq_some_iff.mp hkey
    refine (held_mark p j i down).trans ?_
    by_cases hij : i = j
    · rw [if_pos hij, if_pos (by rw [hk, hij])]
      rfl
    · have hne : k ≠ i.val := fun hi => hij (Fin.ext (by omega))
      rw [if_neg hij, if_neg hne]
      rfl

end Keypad

namespace FrameBuffer

variable {width height : Nat}

theorem keys_press (fb : FrameBuffer width height) (k : Int) :
    (Keyed.turned fb (.press k)).keys = fb.keys.put k true := by
  show (((fb.press k).mapError KeyFault.outside).toOption.getD fb).keys = _
  unfold press Keypad.press Keypad.put
  cases Keypad.key? k <;> rfl

theorem keys_release (fb : FrameBuffer width height) (k : Int) :
    (Keyed.turned fb (.release k)).keys = fb.keys.put k false := by
  show (((fb.release k).mapError KeyFault.outside).toOption.getD fb).keys = _
  unfold release Keypad.release Keypad.put
  cases Keypad.key? k <;> rfl

/-- A key event puts its key and no other. -/
theorem holds_turned (fb : FrameBuffer width height) (t : Turn) (i : Nibble) :
    (Keyed.turned fb t).keys.holds i = (t.puts? i).getD (fb.keys.holds i) := by
  cases t with
  | step => rfl
  | press k =>
    rw [keys_press, Keypad.holds_put]
    rfl
  | release k =>
    rw [keys_release, Keypad.holds_put]
    rfl

end FrameBuffer

namespace Session

variable {width height : Nat} {s : Session (FrameBuffer width height)}

theorem holds_apply (t : Turn) (i : Nibble) :
    (s.apply t.operation).1.machine.surface.keys.holds i =
      (t.puts? i).getD (s.machine.surface.keys.holds i) := by
  by_cases ht : t = .step
  · subst ht
    show (s.apply .step).1.machine.surface.keys.holds i = s.machine.surface.keys.holds i
    rw [machine_apply_step, Machine.keys_step]
  · rw [machine_apply_of_ne_step ht]
    exact FrameBuffer.holds_turned _ t i

/-- Steps do not change which keys are held, so the key events alone tell. -/
theorem holds_applyAll (turns : List Turn) : ∀ (s : Session (FrameBuffer width height)) (i : Nibble),
    (s.applyAll (turns.map Turn.operation)).1.machine.surface.keys.holds i =
      (latest? (Turn.puts? i) turns).getD (s.machine.surface.keys.holds i) := by
  induction turns with
  | nil => exact fun _ _ => rfl
  | cons t turns ih =>
    intro s i
    rw [getD_latest?_cons, ← holds_apply t i]
    exact ih (s.apply t.operation).1 i

theorem reports_applyAll (s : Session (FrameBuffer width height)) (turns : List Turn) :
    (s.applyAll (turns.map Turn.operation)).1.machine.surface.keys.Reports
      (s.machine.surface.keys.HeldAfter turns) := by
  have hheld : s.machine.surface.keys.HeldAfter turns = fun i =>
      (s.applyAll (turns.map Turn.operation)).1.machine.surface.keys.holds i = true := by
    funext i
    rw [holds_applyAll]
    rfl
  rw [hheld]
  exact Keypad.reports _

/-- A key that does not exist is refused, and nothing changes. -/
theorem apply_key_outside {k : Int} (h : ¬ (0 ≤ k ∧ k ≤ 15)) :
    s.apply (.press k) = (s, .failed (.key (.outside ⟨k⟩))) ∧
    s.apply (.release k) = (s, .failed (.key (.outside ⟨k⟩))) := by
  have hkey : Keypad.key? k = none := by
    unfold Keypad.key?
    rw [dif_neg (by omega)]
  have hpress : s.machine.surface.press k = .error ⟨k⟩ := by
    unfold FrameBuffer.press Keypad.press
    rw [hkey]
    rfl
  have hrelease : s.machine.surface.release k = .error ⟨k⟩ := by
    unfold FrameBuffer.release Keypad.release
    rw [hkey]
    rfl
  constructor
  · show s.keyEvent ((s.machine.surface.press k).mapError .outside) = _
    rw [hpress]
    rfl
  · show s.keyEvent ((s.machine.surface.release k).mapError .outside) = _
    rw [hrelease]
    rfl

end Session

/-! ## The wait -/

/-- The core `next` is `c` after a wait of `n` steps for a key that the step after them has taken. -/
structure Core.TookKey (c : Core) (w : Word) (n : Nat) (key : Nibble) (next : Core) : Prop where
  key : (next.regs.get w.x).toNat = key
  others (x : Nibble) : x ≠ w.x → next.regs.get x = c.regs.get x
  pc : next.regs.pc = c.regs.pc + 2
  i : next.regs.i = c.regs.i
  calls : next.regs.calls = c.regs.calls
  rest : c.Ticked (n + 1) { next with regs := c.regs }

theorem Core.tookKey_set {c d : Core} {n : Nat} (h : c.Ticked n d) (w : Word) (key : Nibble) :
    c.TookKey w n key (d.tick.set w.x (Byte.ofInt key.val)).next where
  key := by
    have hkey := key.isLt
    show ((d.regs.set w.x (Byte.ofInt key.val)).get w.x).toNat = _
    rw [Registers.get_set_self, Byte.ofInt, UInt8.toNat_ofNat']
    omega
  others x hx := by
    show (d.regs.set w.x (Byte.ofInt key.val)).get x = _
    rw [Registers.get_set_of_ne hx, h.regs]
  pc := by
    show d.regs.pc + 2 = _
    rw [h.regs]
  i := by
    show d.regs.i = _
    rw [h.regs]
  calls := by
    show d.regs.calls = _
    rw [h.regs]
  rest := by
    have htick := h.trans (.tick d)
    exact ⟨rfl, htick.memory, htick.random, htick.delay, htick.sound, htick.steps⟩

/-- A step of the wait asks for the lowest key, and stays if there is none. -/
theorem Machine.step_of_keyWait {width height : Nat} {m : Machine (FrameBuffer width height)}
    {w : Word} (hfetch : m.core.fetch = .ok w) (hw : w.Fits "Fx0A") :
    m.step.fault? = none ∧ m.step.machine = ⟨m.surface.keys.lowest?.elim m.core.tick fun key =>
      (m.core.tick.set w.x (Byte.ofInt key.val)).next, m.surface⟩ := by
  have hop : Opcode.ofWord? w = some .ldVxK := (Word.fits_pattern_iff .ldVxK).mp hw
  have hasked : Surface.ask m.surface .anyKey =
      .ok (m.surface.keys.lowest?.map fun key => (key.val : Int), m.surface) := rfl
  rw [step_of_ofWord? hfetch hop]
  rw [perform_eq]
  simp only [Opcode.exec, hasked]
  cases m.surface.keys.lowest? <;> exact ⟨trivial, rfl⟩

namespace Keypad

/-- No step among the turns comes while a key is held. -/
def Unanswered (start : Keypad) (turns : List Turn) : Prop :=
  ∀ before, before ++ [.step] <+: turns → ∀ i, ¬ start.HeldAfter before i

theorem unanswered_iff {start : Keypad} {turns : List Turn} : start.Unanswered turns ↔
    ∀ n < turns.length, turns[n]? = some .step → ∀ i, ¬ start.HeldAfter (turns.take n) i := by
  constructor
  · intro h n hn hstep
    refine h (turns.take n) ?_
    rw [List.getElem?_eq_getElem hn] at hstep
    rw [← Option.some.inj hstep, List.take_append_getElem]
    exact List.take_prefix _ _
  · rintro h before ⟨rest, rfl⟩
    have hbefore := h before.length (by simp) (by simp)
    simpa using hbefore

instance (start : Keypad) (turns : List Turn) : Decidable (start.Unanswered turns) :=
  decidable_of_iff _ unanswered_iff.symm

theorem Unanswered.initial {start : Keypad} {turns before : List Turn} (h : start.Unanswered turns)
    (hpre : before <+: turns) : start.Unanswered before := fun first hfirst =>
  h first (hfirst.trans hpre)

end Keypad

namespace Session

variable {width height : Nat} {s : Session (FrameBuffer width height)} {w : Word} {turns : List Turn}

/-- Until a step comes while a key is held, the wait goes on. -/
theorem idled_of_unanswered (hfetch : s.machine.core.fetch = .ok w) (hw : w.Fits "Fx0A")
    (h : s.machine.surface.keys.Unanswered turns) :
    s.machine.Idled turns (s.applyAll (turns.map Turn.operation)).1.machine := by
  refine idled_applyAll turns fun before hpre hidled => ?_
  have hkeys := (reports_applyAll s before).lowest?_none.mpr (h before hpre)
  unfold Machine.Idle
  rw [(Machine.step_of_keyWait (hidled.core.fetch.trans hfetch) hw).2, hkeys]
  rfl

/-- No step of the wait fails. -/
theorem apply_step_of_unanswered (hfetch : s.machine.core.fetch = .ok w) (hw : w.Fits "Fx0A")
    (h : s.machine.surface.keys.Unanswered turns) :
    ((s.applyAll (turns.map Turn.operation)).1.apply .step).2 = .done := by
  have hidled := idled_of_unanswered hfetch hw h
  obtain ⟨hfault, _⟩ := Machine.step_of_keyWait (hidled.core.fetch.trans hfetch) hw
  rw [answer_step, hfault]
  rfl

/-- **Waiting for a key.** From a word that waits for a key, and over any steps and key events, the
keypad tells at every point which keys are held, and refuses keys that do not exist. Until a step comes
while a key is held, the steps succeed and do nothing but count. The first step that comes while keys
are held puts the lowest of them into the register of the word and goes on to the next one. -/
theorem key_wait (s : Session (FrameBuffer width height)) {w : Word}
    (hfetch : s.machine.core.fetch = .ok w) (hw : w.Fits "Fx0A") (turns : List Turn) :
    let held := s.machine.surface.keys.HeldAfter turns
    let left := s.applyAll (turns.map Turn.operation)
    left.1.machine.surface.keys.Reports held ∧
    (∀ k : Int, ¬ (0 ≤ k ∧ k ≤ 15) →
      left.1.apply (.press k) = (left.1, .failed (.key (.outside ⟨k⟩))) ∧
      left.1.apply (.release k) = (left.1, .failed (.key (.outside ⟨k⟩)))) ∧
    (s.machine.surface.keys.Unanswered turns →
      s.machine.Idled turns left.1.machine ∧
      left.1.machine.surface.screen = s.machine.surface.screen ∧
      (∀ answer, (Turn.step, answer) ∈ turns.zip left.2 → answer = .done) ∧
      ((∃ i, held i) → ∃ key, held key ∧ (∀ i, held i → key ≤ i) ∧
        (left.1.apply .step).2 = .done ∧
        (left.1.apply .step).1.machine.surface = left.1.machine.surface ∧
        s.machine.core.TookKey w (turns.count .step) key (left.1.apply .step).1.machine.core)) := by
  intro held left
  have hreports : left.1.machine.surface.keys.Reports held := reports_applyAll s turns
  refine ⟨hreports, fun k hk => apply_key_outside hk, fun h => ?_⟩
  have hidled : s.machine.Idled turns left.1.machine := idled_of_unanswered hfetch hw h
  refine ⟨hidled, ?_, fun answer hanswer => ?_, fun ⟨i, hi⟩ => ?_⟩
  · rw [hidled.surface]
    exact FrameBuffer.screen_turned turns _
  · obtain ⟨before, hpre, rfl⟩ := answer_of_mem_zip hanswer
    have hbefore := h.initial ((List.prefix_append before _).trans hpre)
    exact apply_step_of_unanswered hfetch hw hbefore
  · obtain ⟨key, hkey⟩ : ∃ key, left.1.machine.surface.keys.lowest? = some key := by
      cases hlow : left.1.machine.surface.keys.lowest? with
      | none => exact absurd hi (hreports.lowest?_none.mp hlow i)
      | some key => exact ⟨key, rfl⟩
    obtain ⟨hheld, hleast⟩ := (hreports.lowest?_some key).mp hkey
    obtain ⟨_, htook⟩ := Machine.step_of_keyWait (hidled.core.fetch.trans hfetch) hw
    rw [hkey] at htook
    rw [machine_apply_step, htook]
    exact ⟨key, hheld, hleast, apply_step_of_unanswered hfetch hw h, rfl,
      Core.tookKey_set hidled.core w key⟩

/-- A program that waits for a key into V5, with the sound on and key 3 held. -/
def waitsForKey : Session (FrameBuffer 8 4) :=
  ⟨⟨{ (Machine.ofImage [0xF5, 0x0A]).core with timers := ⟨9, 2⟩ }, { keys := Keypad.released.put 3 true }⟩,
    { threshold := 30 }⟩

/-- A wait over two steps: key 3 goes up before the first, key 9 goes down and up before the second. -/
def twoWaits : List Turn :=
  [.release 3, .step, .press 20, .press 9, .release 9, .step, .press 12, .press 7]

theorem waitsForKey_takes :
    waitsForKey.machine.core.fetch = .ok 0xF50A ∧ Word.Fits 0xF50A "Fx0A" ∧
    waitsForKey.machine.surface.keys.Unanswered twoWaits ∧
    ∃ left, (waitsForKey.applyAll (twoWaits.map Turn.operation)).1 = left ∧
      left.machine.core.regs.pc = 0x200 ∧ left.machine.core.steps = 2 ∧
      left.machine.core.timers.delay.toNat = 7 ∧ left.machine.core.timers.sound.toNat = 0 ∧
      left.machine.surface.keys.lowest? = some 7 ∧
      (left.apply .step).2 = .done ∧
      ((left.apply .step).1.machine.core.regs.get 5).toNat = 7 ∧
      (left.apply .step).1.machine.core.regs.pc = 0x202 := by
  have hfetch : waitsForKey.machine.core.fetch = .ok 0xF50A := by decide +kernel
  have hfits : Word.Fits 0xF50A "Fx0A" := by decide
  have hunanswered : waitsForKey.machine.surface.keys.Unanswered twoWaits := by decide +kernel
  obtain ⟨hreports, _, hwait⟩ := key_wait waitsForKey hfetch hfits twoWaits
  obtain ⟨⟨hcore, _⟩, _, _, htaken⟩ := hwait hunanswered
  have hseven : waitsForKey.machine.surface.keys.HeldAfter twoWaits 7 := by decide +kernel
  have hleast : ∀ i, waitsForKey.machine.surface.keys.HeldAfter twoWaits i → 7 ≤ i := by
    decide +kernel
  obtain ⟨key, hheld, hkey, hdone, _, htook⟩ := htaken ⟨7, hseven⟩
  obtain rfl : key = 7 := Fin.le_antisymm (hkey 7 hseven) (hleast key hheld)
  exact ⟨hfetch, hfits, hunanswered, _, rfl, (congrArg Registers.pc hcore.regs).trans rfl,
    hcore.steps.trans rfl, hcore.delay.trans rfl, hcore.sound.trans rfl,
    (hreports.lowest?_some 7).mpr ⟨hseven, hleast⟩, hdone, htook.key, htook.pc⟩

end Session

end Chip8
