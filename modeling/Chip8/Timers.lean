import Chip8.Word

/-!
# The delay and sound timers

Two bytes that count down to zero, one each tick. The machine beeps while the sound timer runs.
-/

namespace Chip8

/-- The two timers. -/
structure Timers where
  delay : Byte := 0
  sound : Byte := 0
deriving DecidableEq, Repr

namespace Timers

/-- One less, but not below zero. -/
def countDown (b : Byte) : Byte := UInt8.ofNat (b.toNat - 1)

theorem toNat_countDown (b : Byte) : (countDown b).toNat = b.toNat - 1 := by
  have hb := b.toNat_lt
  unfold countDown
  rw [UInt8.toNat_ofNat']
  omega

/-- Both timers count down. -/
def tick (t : Timers) : Timers := ⟨countDown t.delay, countDown t.sound⟩

/-- Sets the delay timer to the low byte of an integer. -/
def setDelay (t : Timers) (value : Int) : Timers := { t with delay := Byte.ofInt value }

/-- Sets the sound timer to the low byte of an integer. -/
def setSound (t : Timers) (value : Int) : Timers := { t with sound := Byte.ofInt value }

/-- The sound timer runs. -/
def soundActive (t : Timers) : Bool := decide (t.sound ≠ 0)

end Timers

end Chip8
