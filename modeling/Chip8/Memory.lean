import Chip8.Attempt
import Chip8.Font
import Chip8.Text.Hex

/-!
# Memory

4096 bytes. The font lies at the bottom, programs are loaded at `programStart`:

    000 - 04F    font, fixed once it is loaded
    050 - 1FF    free for programs
    200 - FFF    program image and work space

An access names a first address and a length, both any integers; it succeeds only if it lies inside
(`InRange`). Writes to the font are dropped byte by byte and reported (`DroppedWrite`).

A store (`Store`) is an attempt that goes byte by byte. A block is checked as a whole before its first
byte, and then none of its bytes can fail (`Store.block_eq`).

Memory is seen through `byte`: each operation below comes with a lemma that says what it does to
`byte`.
-/

namespace Chip8

/-! ## What can go wrong -/

/-- The direction of an access. -/
inductive Access
  | read
  | write
deriving DecidableEq, Repr

/-- An access that does not lie inside memory. -/
structure AccessFault where
  access : Access
  address : Int
  length : Int
deriving DecidableEq, Repr

/-- The direction of an access in messages. -/
def Access.name : Access → String
  | .read => "read"
  | .write => "write"

/-- The text of an access fault. -/
def AccessFault.message (f : AccessFault) : String :=
  "Out-of-range " ++ f.access.name ++ " of " ++ toString f.length ++ " byte(s) at $"
    ++ Text.Hex.padded 4 f.address ++ " (memory ends at $FFF)"

/-- A program image that does not fit. -/
structure ProgramTooLarge where
  size : Nat
deriving DecidableEq, Repr

/-- The text of a refused program image. -/
def ProgramTooLarge.message (e : ProgramTooLarge) : String :=
  "Program is " ++ toString e.size ++ " bytes, at most 3584 fit at $200"

/-- A byte that was not stored because its address lies in the font. -/
structure DroppedWrite where
  address : Nat
  value : Byte
deriving DecidableEq, Repr

/-! ## The type and its view -/

/-- The contents of memory. -/
structure Memory where
  bytes : Vector Byte 4096
deriving DecidableEq

namespace Memory

/-- The number of bytes. -/
def size : Nat := 4096

/-- The address at which programs are loaded. -/
def programStart : Nat := 0x200

/-- The longest program image that fits. -/
def maxProgramSize : Nat := 3584

/-- Memory with every byte zero, the font included. -/
def zeroed : Memory := ⟨Vector.replicate 4096 0⟩

/-- The byte at an address; zero past the end. -/
def byte (m : Memory) (k : Nat) : Byte := m.bytes[k]?.getD 0

/-- Memory is determined by its bytes. -/
theorem ext_byte {m m' : Memory} (h : ∀ k < 4096, m.byte k = m'.byte k) : m = m' := by
  cases m with
  | mk v =>
    cases m' with
    | mk v' =>
      congr 1
      apply Vector.ext
      intro k hk
      have hk' := h k hk
      simp only [byte, Vector.getElem?_eq_getElem hk, Option.getD_some] at hk'
      exact hk'

@[simp] theorem byte_zeroed (k : Nat) : zeroed.byte k = 0 := by
  unfold byte zeroed
  rw [Vector.getElem?_replicate]
  split <;> rfl

/-- The access lies inside memory. -/
def InRange (address length : Int) : Prop := 0 ≤ address ∧ 0 ≤ length ∧ address + length ≤ 4096

instance (address length : Int) : Decidable (InRange address length) :=
  inferInstanceAs (Decidable (_ ∧ _))

/-! ## Reading -/

/-- The bytes of a block that lies inside. -/
def block (m : Memory) (start count : Nat) : List Byte := (List.range' start count).map m.byte

@[simp] theorem length_block (m : Memory) (start count : Nat) : (m.block start count).length = count := by
  simp [block]

/-- Reads one byte. -/
def read8 (m : Memory) (address : Int) : Except AccessFault Byte :=
  if InRange address 1 then .ok (m.byte address.toNat) else .error ⟨.read, address, 1⟩

/-- Reads a word, high byte first. -/
def read16 (m : Memory) (address : Int) : Except AccessFault Word :=
  if InRange address 2 then
    .ok (Word.ofBytes (m.byte address.toNat) (m.byte (address.toNat + 1)))
  else .error ⟨.read, address, 2⟩

/-- Reads a block. -/
def readBlock (m : Memory) (address length : Int) : Except AccessFault (List Byte) :=
  if InRange address length then .ok (m.block address.toNat length.toNat)
  else .error ⟨.read, address, length⟩

/-! ## Unprotected stores -/

/-- Puts a byte at an address; past the end nothing happens. -/
def set (m : Memory) (k : Nat) (b : Byte) : Memory := ⟨m.bytes.setIfInBounds k b⟩

theorem byte_set (m : Memory) (k : Nat) (b : Byte) (j : Nat) :
    (m.set k b).byte j = if j = k ∧ j < 4096 then b else m.byte j := by
  unfold byte set
  rw [Vector.getElem?_setIfInBounds]
  by_cases h : k = j
  · subst h
    by_cases hk : k < 4096 <;> simp [hk]
  · rw [if_neg h, if_neg (fun hj => h hj.1.symm)]

/-- Puts bytes from an address on. -/
def overlay (m : Memory) (start : Nat) : List Byte → Memory
  | [] => m
  | b :: rest => (m.set start b).overlay (start + 1) rest

/-- Laying bytes over memory changes just the bytes laid over. -/
theorem byte_overlay (bs : List Byte) : ∀ (m : Memory) (start j : Nat), start + bs.length ≤ 4096 →
    (m.overlay start bs).byte j =
      if start ≤ j ∧ j < start + bs.length then bs[j - start]?.getD 0 else m.byte j := by
  induction bs with
  | nil =>
    intro m start j _
    rw [if_neg (by simp only [List.length_nil]; omega)]
    rfl
  | cons b rest ih =>
    intro m start j hfit
    rw [List.length_cons] at hfit ⊢
    rw [overlay, ih (m.set start b) (start + 1) j (by omega)]
    by_cases hj : j = start
    · subst hj
      rw [if_neg (by omega), if_pos (by omega), byte_set, if_pos ⟨rfl, by omega⟩]
      simp
    · rw [byte_set, if_neg (show ¬ (j = start ∧ j < 4096) by omega)]
      by_cases hin : start + 1 ≤ j ∧ j < start + 1 + rest.length
      · rw [if_pos hin, if_pos (by omega), show j - start = (j - (start + 1)) + 1 by omega,
          List.getElem?_cons_succ]
      · rw [if_neg hin, if_neg (by omega)]

/-- Writes the font, whatever was there. -/
def loadFont (m : Memory) : Memory := m.overlay 0 Font.table

/-- Lays a program image at the program start; what lies past its end stays. -/
def loadProgram (m : Memory) (image : List Byte) : Except ProgramTooLarge Memory :=
  if image.length ≤ maxProgramSize then .ok (m.overlay programStart image)
  else .error ⟨image.length⟩

/-! ## Protected stores -/

/-- Memory after a store, with the bytes that the font refused, in order. -/
structure Stored where
  memory : Memory
  dropped : List DroppedWrite

/-- Stores a byte unless the address lies in the font. -/
def storeByte (m : Memory) (k : Nat) (b : Byte) : Stored :=
  if k < Font.size then ⟨m, [⟨k, b⟩]⟩ else ⟨m.set k b, []⟩

/-- Stores bytes from an address on, each as `storeByte` does. -/
def storeBytes (m : Memory) (start : Nat) : List Byte → Stored
  | [] => ⟨m, []⟩
  | b :: rest =>
    let first := m.storeByte start b
    let others := first.memory.storeBytes (start + 1) rest
    ⟨others.memory, first.dropped ++ others.dropped⟩

theorem byte_storeByte (m : Memory) (k : Nat) (b : Byte) (j : Nat) :
    (m.storeByte k b).memory.byte j = if j = k ∧ j < 4096 ∧ 80 ≤ j then b else m.byte j := by
  unfold storeByte Font.size
  split
  · rw [if_neg (by omega)]
  · next h =>
    rw [byte_set]
    by_cases hj : j = k ∧ j < 4096
    · rw [if_pos hj, if_pos (by omega)]
    · rw [if_neg hj, if_neg (by omega)]

/-- A protected store changes just the bytes of its block that lie outside the font. -/
theorem byte_storeBytes (bs : List Byte) : ∀ (m : Memory) (start j : Nat),
    start + bs.length ≤ 4096 →
    (m.storeBytes start bs).memory.byte j =
      if start ≤ j ∧ j < start + bs.length ∧ 80 ≤ j then bs[j - start]?.getD 0 else m.byte j := by
  induction bs with
  | nil =>
    intro m start j _
    rw [if_neg (by simp only [List.length_nil]; omega)]
    rfl
  | cons b rest ih =>
    intro m start j hfit
    rw [List.length_cons] at hfit ⊢
    rw [storeBytes, ih (m.storeByte start b).memory (start + 1) j (by omega), byte_storeByte]
    by_cases hj : j = start
    · subst hj
      rw [if_neg (show ¬ (j + 1 ≤ j ∧ j < j + 1 + rest.length ∧ 80 ≤ j) by omega)]
      by_cases h80 : 80 ≤ j
      · rw [if_pos ⟨rfl, by omega, h80⟩, if_pos (by omega)]
        simp
      · rw [if_neg (by omega), if_neg (by omega)]
    · rw [if_neg (show ¬ (j = start ∧ j < 4096 ∧ 80 ≤ j) by omega)]
      by_cases hin : start + 1 ≤ j ∧ j < start + 1 + rest.length ∧ 80 ≤ j
      · rw [if_pos hin, if_pos (by omega), show j - start = (j - (start + 1)) + 1 by omega,
          List.getElem?_cons_succ]
      · rw [if_neg hin, if_neg (by omega)]

/-! ### Stores as attempts -/

/-- A store under way. One that fails keeps the bytes that it has stored by then. -/
abbrev Store := Attempt AccessFault Stored Unit

namespace Store

/-- Ends a store that does not lie inside memory. -/
def check (address length : Int) : Store :=
  if InRange address length then pure () else throw ⟨.write, address, length⟩

/-- Stores the low byte of an integer, or drops it if the address lies in the font. -/
def byte (address value : Int) : Store := do
  check address 1
  if address < Font.size then
    modify fun s => { s with dropped := s.dropped ++ [⟨address.toNat, Byte.ofInt value⟩] }
  else
    modify fun s => { s with memory := s.memory.set address.toNat (Byte.ofInt value) }

/-- Stores bytes one after the other. -/
def each (address : Int) : List Byte → Store
  | [] => pure ()
  | b :: rest => do
    byte address b.toInt
    each (address + 1) rest

/-- Stores a block, which has to lie inside memory as a whole. -/
def block (address : Int) (data : List Byte) : Store := do
  check address data.length
  each address data

end Store

/-- What two stores make, one after the other. -/
def Stored.followedBy (s next : Stored) : Stored := ⟨next.memory, s.dropped ++ next.dropped⟩

namespace Store

theorem check_of_inRange {address length : Int} (h : InRange address length) (s : Stored) :
    (check address length).run s = .ok () s := by
  unfold check
  rw [if_pos h]
  rfl

theorem check_of_not_inRange {address length : Int} (h : ¬ InRange address length) (s : Stored) :
    (check address length).run s = .error ⟨.write, address, length⟩ s := by
  unfold check
  rw [if_neg h]
  rfl

theorem byte_of_inRange {address : Int} (h : InRange address 1) (value : Int) (s : Stored) :
    (byte address value).run s =
      .ok () (s.followedBy (s.memory.storeByte address.toNat (Byte.ofInt value))) := by
  have hsize : address < Font.size ↔ address.toNat < Font.size := by
    have h0 := h.1
    omega
  unfold byte
  rw [Attempt.run_bind_ok (check_of_inRange h s)]
  unfold storeByte Stored.followedBy
  by_cases hfont : address < Font.size
  · rw [if_pos hfont, if_pos (hsize.mp hfont)]
    rfl
  · rw [if_neg hfont, if_neg (fun hlt => hfont (hsize.mpr hlt)), List.append_nil]
    rfl

/-- Bytes that all lie inside are stored without a failure on the way. -/
theorem each_of_inRange (bs : List Byte) : ∀ {address : Int} (s : Stored),
    InRange address bs.length →
    (each address bs).run s = .ok () (s.followedBy (s.memory.storeBytes address.toNat bs)) := by
  induction bs with
  | nil =>
    intro address s _
    unfold Stored.followedBy storeBytes
    rw [List.append_nil]
    rfl
  | cons b rest ih =>
    intro address s h
    obtain ⟨h0, -, hend⟩ := h
    rw [List.length_cons] at hend
    have hfirst : InRange address 1 := ⟨h0, by omega, by omega⟩
    have hrest : InRange (address + 1) rest.length := ⟨by omega, by omega, by omega⟩
    rw [each, Attempt.run_bind_ok (byte_of_inRange hfirst b.toInt s), ih _ hrest, Byte.ofInt_toInt,
      show (address + 1).toNat = address.toNat + 1 by omega]
    simp only [Stored.followedBy, storeBytes, List.append_assoc]

/-- A block is stored, or fails with everything as it was. -/
theorem block_eq (address : Int) (data : List Byte) (s : Stored) :
    (block address data).run s =
      if InRange address data.length then
        .ok () (s.followedBy (s.memory.storeBytes address.toNat data))
      else .error ⟨.write, address, data.length⟩ s := by
  unfold block
  by_cases h : InRange address data.length
  · rw [if_pos h, Attempt.run_bind_ok (check_of_inRange h s), each_of_inRange data s h]
  · rw [if_neg h, Attempt.run_bind_error (check_of_not_inRange h s)]

theorem byte_eq (address value : Int) (s : Stored) :
    (byte address value).run s =
      if InRange address 1 then
        .ok () (s.followedBy (s.memory.storeByte address.toNat (Byte.ofInt value)))
      else .error ⟨.write, address, 1⟩ s := by
  by_cases h : InRange address 1
  · rw [if_pos h, byte_of_inRange h]
  · unfold byte
    rw [if_neg h, Attempt.run_bind_error (check_of_not_inRange h s)]

/-- What a store makes of memory. -/
def resultOn (p : Store) (m : Memory) : Except AccessFault Stored := (p.result ⟨m, []⟩).map Prod.snd

end Store

/-- Writes the low byte of an integer. -/
def write8 (m : Memory) (address value : Int) : Except AccessFault Stored :=
  (Store.byte address value).resultOn m

/-- Writes a block, all of it or nothing. -/
def writeBlock (m : Memory) (address : Int) (data : List Byte) : Except AccessFault Stored :=
  (Store.block address data).resultOn m

theorem writeBlock_eq (m : Memory) (address : Int) (data : List Byte) :
    m.writeBlock address data =
      if InRange address data.length then .ok (m.storeBytes address.toNat data)
      else .error ⟨.write, address, data.length⟩ := by
  unfold writeBlock Store.resultOn Attempt.result
  rw [Store.block_eq]
  by_cases h : InRange address data.length
  · rw [if_pos h, if_pos h]
    rfl
  · rw [if_neg h, if_neg h]
    rfl

end Memory

end Chip8
