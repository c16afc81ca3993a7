import Chip8.FrameBuffer
import Chip8.Machine
import Chip8.Rom
import Chip8.Surface.Recorder

/-!
# Sessions

A host drives a machine by operations: steps and runs, resets and loads, writes to memory, timer
settings and key events. Each operation gives an answer and goes on from the state that it leaves,
also when it fails. What the machine reports goes to the session's log.
-/

namespace Chip8

/-! ## Keys from the host -/

/-- A key event that was refused: there is no such key, or the surface has no keypad. -/
inductive KeyFault
  | outside (cause : KeyOutside)
  | noKeypad
deriving DecidableEq, Repr

/-- A surface whose keys the host can press and release. -/
class Keyed (σ : Type) where
  /-- Holds a key down. -/
  press : σ → Int → Except KeyFault σ
  /-- Lets a key go. -/
  release : σ → Int → Except KeyFault σ

instance {width height : Nat} : Keyed (FrameBuffer width height) where
  press fb k := (fb.press k).mapError .outside
  release fb k := (fb.release k).mapError .outside

/-- The host sets which key a recorder takes for held; any integer will do. -/
instance : Keyed Recorder where
  press s k := .ok { s with held := some k }
  release s _ := .ok { s with held := none }

instance : Keyed Detached where
  press _ _ := .error .noKeypad
  release _ _ := .error .noKeypad

/-! ## Operations -/

/-- What a host does to a machine. -/
inductive Operation
  | step
  | run (limit : Int)
  | reset
  | load (image : List Byte)
  | loadFile (files : FileTree) (path : String)
  | pokeByte (address value : Int)
  | poke (address : Int) (data : List Byte)
  | setDelay (value : Int)
  | setSound (value : Int)
  | press (key : Int)
  | release (key : Int)

/-- Why an operation failed. -/
inductive Failure
  | fault (cause : Fault)
  | rom (cause : RomError)
  | access (cause : AccessFault)
  | key (cause : KeyFault)
deriving DecidableEq, Repr

/-- The answer to an operation. -/
inductive Answer
  | done
  | stopped (reason : StopReason)
  | failed (cause : Failure)
deriving DecidableEq, Repr

/-- A machine and what it reported. -/
structure Session (σ : Type) where
  machine : Machine σ
  log : Log

namespace Session

variable {σ : Type}

/-- Puts the core of the machine. -/
def withCore (s : Session σ) (core : Core) : Session σ :=
  { s with machine := { s.machine with core := core } }

/-- The session after a load, or as it was. -/
def loadImage (s : Session σ) (image : List Byte) : Session σ × Answer :=
  match s.machine.load image with
  | .ok (machine, record) => (⟨machine, s.log.add record⟩, .done)
  | .error error => (s, .failed (.rom (.tooLarge error)))

/-- Takes over what a store has made of memory, and logs what the font refused. -/
def withStored (s : Session σ) (stored : Memory.Stored) : Session σ :=
  { s.withCore { s.machine.core with memory := stored.memory } with
    log := s.log.addAll (stored.dropped.map Record.dropped) }

/-- The session after a store, as far as it went. -/
def store (s : Session σ) (p : Memory.Store) : Session σ × Answer :=
  match p.run ⟨s.machine.core.memory, []⟩ with
  | .ok _ stored => (s.withStored stored, .done)
  | .error cause reached => (s.withStored reached, .failed (.access cause))

/-- The session after a key event, or as it was. -/
def keyEvent (s : Session σ) (surface : Except KeyFault σ) : Session σ × Answer :=
  match surface with
  | .ok surface => ({ s with machine := { s.machine with surface := surface } }, .done)
  | .error cause => (s, .failed (.key cause))

/-- One operation. -/
def apply [Surface σ] [Keyed σ] (s : Session σ) : Operation → Session σ × Answer
  | .step =>
    let out := s.machine.stepAt s.log.threshold
    (⟨out.machine, s.log.addAll out.records⟩,
      match out.fault? with
      | none => .done
      | some cause => .failed (.fault cause))
  | .run limit =>
    let out := s.machine.run limit s.log
    (⟨out.machine, out.log⟩,
      match out.ending with
      | .ok reason => .stopped reason
      | .error cause => .failed (.fault (.surface cause)))
  | .reset => ({ s with machine := s.machine.reset }, .done)
  | .load image => s.loadImage image
  | .loadFile files path =>
    match files.readRom path with
    | .ok image => s.loadImage image
    | .error error => (s, .failed (.rom error))
  | .pokeByte address value => s.store (.byte address value)
  | .poke address data => s.store (.block address data)
  | .setDelay value =>
    (s.withCore { s.machine.core with timers := s.machine.core.timers.setDelay value }, .done)
  | .setSound value =>
    (s.withCore { s.machine.core with timers := s.machine.core.timers.setSound value }, .done)
  | .press key => s.keyEvent (Keyed.press s.machine.surface key)
  | .release key => s.keyEvent (Keyed.release s.machine.surface key)

/-- Several operations, with their answers in order. -/
def applyAll [Surface σ] [Keyed σ] (s : Session σ) : List Operation → Session σ × List Answer
  | [] => (s, [])
  | op :: ops =>
    let first := s.apply op
    let others := first.1.applyAll ops
    (others.1, first.2 :: others.2)

/-- A session with a machine created anew; the log starts with its construction. -/
def create (surface : σ) (random : RandomSource) (image : List Byte) (threshold : Int) :
    Except ProgramTooLarge (Session σ) :=
  (Machine.create surface random image).map fun created =>
    ⟨created.1, ({ threshold := threshold } : Log).addAll created.2⟩

end Session

end Chip8
