import Chip8.Log
import Chip8.Proofs.Latest
import Chip8.Proofs.Stores

/-!
# The last write wins

A host writes to memory byte by byte, in blocks, with the font and with program images, in any order
and at any addresses; a write that does not fit fails. A write gives bytes to the addresses of its
range, except that bytes and blocks give none below the end of the font. Memory then holds at each
address what the last write that fitted gave it, and what the font refused has been reported.

* `Memory.byte_stored`, `Memory.dropped_stored` — one write, at every address
* `Memory.last_write_wins` — every sequence of writes from zeroed memory
-/

namespace Chip8

namespace Memory

/-! ## Writes -/

/-- A write by a host. -/
inductive Write
  | byte (address value : Int)
  | block (address : Int) (data : List Byte)
  | font
  | program (image : List Byte)

/-- Why a write failed. -/
inductive WriteFault
  | access (cause : AccessFault)
  | tooLarge (cause : ProgramTooLarge)

/-- The outcome of a write. -/
def write? (m : Memory) : Write → Except WriteFault Stored
  | .byte address value => (m.write8 address value).mapError .access
  | .block address data => (m.writeBlock address data).mapError .access
  | .font => .ok ⟨m.loadFont, []⟩
  | .program image => ((m.loadProgram image).map (⟨·, []⟩)).mapError .tooLarge

/-- A write under way, which leaves what it has stored by then if it fails. -/
def Write.attempt : Write → Attempt WriteFault Stored Unit
  | .byte address value => Attempt.onPart id (fun stored _ => stored) .access (Store.byte address value)
  | .block address data => Attempt.onPart id (fun stored _ => stored) .access (Store.block address data)
  | .font => modify fun s => { s with memory := s.memory.loadFont }
  | .program image => do
    let s ← get
    let memory ← Attempt.ofExcept ((s.memory.loadProgram image).mapError .tooLarge)
    modify fun s => { s with memory := memory }

/-- Memory after writes, with the records that they left. -/
structure Written where
  memory : Memory
  records : List Record

/-- Memory after a write, as far as it went. -/
def write (m : Memory) (w : Write) : Written :=
  let left := w.attempt.left ⟨m, []⟩
  ⟨left.memory, left.dropped.map .dropped⟩

/-- Memory after several writes. -/
def writeAll (m : Memory) : List Write → Written
  | [] => ⟨m, []⟩
  | w :: ws =>
    let first := m.write w
    let rest := first.memory.writeAll ws
    ⟨rest.memory, first.records ++ rest.records⟩

namespace Write

/-- The write succeeds. -/
def Fits : Write → Prop
  | byte address _ => 0 ≤ address ∧ address ≤ 0xFFF
  | block address data => ¬ (address < 0 ∨ 0x1000 < address + data.length)
  | font => True
  | program image => image.length ≤ 3584

instance : DecidablePred Fits
  | byte _ _ => inferInstanceAs (Decidable (_ ∧ _))
  | block _ _ => inferInstanceAs (Decidable (¬ (_ ∨ _)))
  | font => inferInstanceAs (Decidable True)
  | program _ => inferInstanceAs (Decidable (_ ≤ _))

/-- The first address of a write's range. -/
def start : Write → Int
  | byte address _ => address
  | block address _ => address
  | font => 0
  | program _ => 0x200

/-- The bytes of a write's range. -/
def bytes : Write → List Byte
  | byte _ value => [Byte.ofInt value]
  | block _ data => data
  | font => Font.table
  | program image => image

/-- The address below which a write gives nothing: bytes and blocks do not reach the font. -/
def floor : Write → Nat
  | byte _ _ => 0x50
  | block _ _ => 0x50
  | font => 0
  | program _ => 0

/-- The byte that the range of a write has at an address. -/
def at? (w : Write) (k : Int) : Option Byte :=
  if w.start ≤ k then w.bytes[(k - w.start).toNat]? else none

/-- The byte that a write gives to an address. -/
def gives? (w : Write) (k : Int) : Option Byte := if w.floor ≤ k then w.at? k else none

/-- The bytes that a write gives to no address, from the lowest address up. -/
def refused (w : Write) : List DroppedWrite :=
  (List.range w.floor).filterMap fun k : Nat => (w.at? k).map (⟨k, ·⟩)

/-- A write succeeds if its range lies inside memory. -/
theorem fits_iff_inRange {w : Write} : w.Fits ↔ InRange w.start w.bytes.length := by
  unfold InRange
  cases w with
  | byte address value =>
    simp only [Fits, start, bytes, List.length_singleton]
    omega
  | block address data =>
    simp only [Fits, start, bytes]
    omega
  | font => simp [Fits, start, bytes, Font.length_table, Font.size]
  | program image =>
    simp only [Fits, start, bytes]
    omega

theorem at?_natCast {w : Write} (h : 0 ≤ w.start) (k : Nat) :
    w.at? k = if w.start.toNat ≤ k then w.bytes[k - w.start.toNat]? else none := by
  unfold at?
  by_cases hk : w.start ≤ k
  · rw [if_pos hk, if_pos (by omega)]
    congr 1
    omega
  · rw [if_neg hk, if_neg (by omega)]

theorem getD_gives? {w : Write} (h : 0 ≤ w.start) (k : Nat) (b : Byte) :
    (w.gives? k).getD b =
      if w.start.toNat ≤ k ∧ k < w.start.toNat + w.bytes.length ∧ w.floor ≤ k then
        w.bytes[k - w.start.toNat]?.getD 0
      else b := by
  unfold gives?
  rw [at?_natCast h]
  by_cases hin : w.start.toNat ≤ k ∧ k < w.start.toNat + w.bytes.length ∧ w.floor ≤ k
  · obtain ⟨hlow, hhigh, hfloor⟩ := hin
    rw [if_pos (by omega), if_pos hlow, if_pos ⟨hlow, hhigh, hfloor⟩,
      List.getElem?_eq_getElem (by omega)]
    rfl
  · rw [if_neg hin]
    by_cases hfloor : w.floor ≤ k
    · by_cases hlow : w.start.toNat ≤ k
      · rw [if_pos (by omega), if_pos hlow, List.getElem?_eq_none (by omega)]
        rfl
      · rw [if_pos (by omega), if_neg hlow]
        rfl
    · rw [if_neg (by omega)]
      rfl

theorem refused_eq {w : Write} (h : 0 ≤ w.start) :
    w.refused = (List.range' w.start.toNat (w.floor - w.start.toNat)).filterMap
      fun k => w.bytes[k - w.start.toNat]?.map (⟨k, ·⟩) := by
  -- the range of the write has no byte below its start, so the scan may as well begin there
  have hbelow : (List.range' 0 (min w.start.toNat w.floor)).filterMap
      (fun k : Nat => (w.at? k).map fun b => (⟨k, b⟩ : DroppedWrite)) = [] := by
    rw [List.filterMap_eq_nil_iff]
    intro k hk
    rw [List.mem_range'_1] at hk
    rw [at?_natCast h, if_neg (by omega)]
    rfl
  have habove : ∀ k ∈ List.range' w.start.toNat (w.floor - w.start.toNat),
      ((w.at? k).map fun b => (⟨k, b⟩ : DroppedWrite)) =
        w.bytes[k - w.start.toNat]?.map (⟨k, ·⟩) := by
    intro k hk
    rw [List.mem_range'_1] at hk
    rw [at?_natCast h, if_pos hk.1]
  unfold refused
  rw [List.range_eq_range']
  by_cases hfloor : w.start.toNat ≤ w.floor
  · rw [Nat.min_eq_left hfloor] at hbelow
    rw [← List.filterMap_congr habove]
    nth_rewrite 1 [← Nat.add_sub_cancel' hfloor]
    rw [← List.range'_append_1, List.filterMap_append, hbelow, Nat.zero_add, List.nil_append]
  · rw [Nat.min_eq_right (by omega)] at hbelow
    rw [hbelow, Nat.sub_eq_zero_of_le (by omega)]
    rfl

end Write

variable {m : Memory}

/-! ## One write -/

/-- What a write stores, whether or not it fits. -/
def stored (m : Memory) (w : Write) : Stored :=
  match w with
  | .byte _ _ => m.storeBytes w.start.toNat w.bytes
  | .block _ _ => m.storeBytes w.start.toNat w.bytes
  | .font => ⟨m.overlay w.start.toNat w.bytes, []⟩
  | .program _ => ⟨m.overlay w.start.toNat w.bytes, []⟩

theorem write?_eq_result (w : Write) : m.write? w = (w.attempt.result ⟨m, []⟩).map Prod.snd := by
  cases w with
  | byte address value =>
    show ((Store.byte address value).resultOn m).mapError _ = _
    unfold Store.resultOn Attempt.result
    rw [Write.attempt, Attempt.run_onPart, id]
    cases (Store.byte address value).run ⟨m, []⟩ <;> rfl
  | block address data =>
    show ((Store.block address data).resultOn m).mapError _ = _
    unfold Store.resultOn Attempt.result
    rw [Write.attempt, Attempt.run_onPart, id]
    cases (Store.block address data).run ⟨m, []⟩ <;> rfl
  | font => rfl
  | program image =>
    show ((m.loadProgram image).map _).mapError _ =
      (Attempt.result (Attempt.ofExcept ((m.loadProgram image).mapError WriteFault.tooLarge) >>= _) _).map _
    cases m.loadProgram image <;> rfl

theorem run_attempt_of_fits {w : Write} (h : w.Fits) :
    w.attempt.run ⟨m, []⟩ = .ok () (m.stored w) := by
  have hin := Write.fits_iff_inRange.mp h
  cases w with
  | byte address value =>
    have hin : InRange address 1 := hin
    rw [Write.attempt, Attempt.run_onPart, id, Store.byte_eq, if_pos hin]
    show EStateM.Result.ok () (m.storeByte address.toNat (Byte.ofInt value)) =
      .ok () (m.storeBytes address.toNat [Byte.ofInt value])
    simp only [storeBytes, List.append_nil]
  | block address data =>
    have hin : InRange address data.length := hin
    rw [Write.attempt, Attempt.run_onPart, id, Store.block_eq, if_pos hin]
    rfl
  | font => rfl
  | program image =>
    show (Attempt.ofExcept _ >>= _).run _ = _
    rw [loadProgram, if_pos (show image.length ≤ maxProgramSize from h)]
    rfl

/-- A write that does not fit fails with everything as it was. -/
theorem run_attempt_of_not_fits {w : Write} (h : ¬ w.Fits) :
    ∃ cause, w.attempt.run ⟨m, []⟩ = .error cause ⟨m, []⟩ := by
  have hin := mt Write.fits_iff_inRange.mpr h
  cases w with
  | byte address value =>
    refine ⟨.access ⟨.write, address, 1⟩, ?_⟩
    rw [Write.attempt, Attempt.run_onPart, id, Store.byte_eq, if_neg (show ¬ InRange address 1 from hin)]
  | block address data =>
    refine ⟨.access ⟨.write, address, data.length⟩, ?_⟩
    rw [Write.attempt, Attempt.run_onPart, id, Store.block_eq,
      if_neg (show ¬ InRange address data.length from hin)]
  | font => exact absurd trivial h
  | program image =>
    refine ⟨.tooLarge ⟨image.length⟩, ?_⟩
    show (Attempt.ofExcept _ >>= _).run _ = _
    rw [loadProgram, if_neg (show ¬ image.length ≤ maxProgramSize from h)]
    rfl

theorem exists_write?_eq_ok_iff {w : Write} : (∃ stored, m.write? w = .ok stored) ↔ w.Fits := by
  rw [write?_eq_result]
  unfold Attempt.result
  constructor
  · rintro ⟨stored, hstored⟩
    by_contra hw
    obtain ⟨cause, hcause⟩ := run_attempt_of_not_fits (m := m) hw
    rw [hcause] at hstored
    cases hstored
  · intro hw
    rw [run_attempt_of_fits hw]
    exact ⟨_, rfl⟩

/-- A write that fits leaves what it gives, and elsewhere what was there. -/
theorem byte_stored {w : Write} (h : w.Fits) (k : Nat) :
    (m.stored w).memory.byte k = (w.gives? k).getD (m.byte k) := by
  have hin := Write.fits_iff_inRange.mp h
  have hfit := hin.toNat_add_le
  rw [Write.getD_gives? hin.1]
  cases w with
  | byte | block => exact byte_storeBytes _ m _ k hfit
  | font | program =>
    refine (byte_overlay _ m _ k hfit).trans ?_
    simp [Write.floor]

theorem dropped_stored {w : Write} (h : w.Fits) : (m.stored w).dropped = w.refused := by
  have hin := Write.fits_iff_inRange.mp h
  cases w with
  | byte | block => exact (dropped_storeBytes _ m _).trans (Write.refused_eq hin.1).symm
  | font | program => rfl

/-- A write that fits gives its bytes and reports what the font refused. -/
theorem write_of_fits {w : Write} (h : w.Fits) :
    m.write w = ⟨(m.stored w).memory, w.refused.map .dropped⟩ := by
  unfold write Attempt.left
  rw [run_attempt_of_fits h, ← dropped_stored h]

/-- A write that does not fit does nothing. -/
theorem write_of_not_fits {w : Write} (h : ¬ w.Fits) : m.write w = ⟨m, []⟩ := by
  obtain ⟨cause, hcause⟩ := run_attempt_of_not_fits (m := m) h
  unfold write Attempt.left
  rw [hcause]
  rfl

/-! ## Many writes -/

/-- The byte at an address after several writes. -/
theorem byte_writeAll (ws : List Write) : ∀ (m : Memory) (k : Nat),
    (m.writeAll ws).memory.byte k =
      (latest? (Write.gives? · k) (ws.filter (·.Fits))).getD (m.byte k) := by
  induction ws with
  | nil => exact fun _ _ => rfl
  | cons w ws ih =>
    intro m k
    refine (ih (m.write w).memory k).trans ?_
    by_cases h : w.Fits
    · rw [List.filter_cons_of_pos (by simpa using h), getD_latest?_cons, write_of_fits h,
        byte_stored h]
    · rw [List.filter_cons_of_neg (by simpa using h), write_of_not_fits h]

/-- The records of several writes. -/
theorem records_writeAll (ws : List Write) : ∀ m : Memory,
    (m.writeAll ws).records =
      (ws.filter (·.Fits)).flatMap fun w => w.refused.map Record.dropped := by
  induction ws with
  | nil => exact fun _ => rfl
  | cons w ws ih =>
    intro m
    show (m.write w).records ++ ((m.write w).memory.writeAll ws).records = _
    rw [ih]
    by_cases h : w.Fits
    · rw [List.filter_cons_of_pos (by simpa using h), List.flatMap_cons, write_of_fits h]
    · rw [List.filter_cons_of_neg (by simpa using h), write_of_not_fits h, List.nil_append]

/-! ## Reading back -/

theorem read8_eq_ok {k : Int} (h : 0 ≤ k ∧ k ≤ 0xFFF) : m.read8 k = .ok (m.byte k.toNat) := by
  unfold read8
  rw [if_pos ⟨h.1, by omega, by omega⟩]

theorem read8_eq_error {k : Int} (h : ¬ (0 ≤ k ∧ k ≤ 0xFFF)) :
    m.read8 k = .error ⟨.read, k, 1⟩ := by
  unfold read8
  rw [if_neg (by unfold InRange; omega)]

theorem mapM_read8 {address : Int} {l : List Nat}
    (h : ∀ i ∈ l, 0 ≤ address + i ∧ address + i ≤ 0xFFF) :
    (l.mapM fun i : Nat => m.read8 (address + i)) =
      .ok (l.map fun i : Nat => m.byte (address + i).toNat) := by
  induction l with
  | nil => rfl
  | cons i l ih =>
    rw [List.mapM_cons, read8_eq_ok (h i List.mem_cons_self),
      ih fun j hj => h j (List.mem_cons_of_mem i hj)]
    rfl

/-- A block is read as its bytes are, one after the other. -/
theorem readBlock_eq (m : Memory) (address length : Int) :
    m.readBlock address length =
      if address < 0 ∨ length < 0 ∨ 0x1000 < address + length then
        .error ⟨.read, address, length⟩
      else (List.range length.toNat).mapM fun i : Nat => m.read8 (address + i) := by
  unfold readBlock
  by_cases hin : InRange address length
  · obtain ⟨hlow, hcount, hhigh⟩ := hin
    have hbyte : ∀ i ∈ List.range length.toNat, 0 ≤ address + i ∧ address + i ≤ 0xFFF := by
      intro i hi
      rw [List.mem_range] at hi
      omega
    rw [if_pos ⟨hlow, hcount, hhigh⟩, if_neg (by omega), mapM_read8 hbyte, block,
      List.range'_eq_map_range, List.map_map]
    congr 1
    refine List.map_congr_left fun i hi => ?_
    show m.byte (address.toNat + i) = m.byte (address + i).toNat
    congr 1
    omega
  · rw [if_neg hin, if_pos (by unfold InRange at hin; omega)]

/-! ## The law -/

/-- **Memory holds what was written last.** After any writes to zeroed memory, whether or not they
fitted, just the addresses from 0 to FFF can be read, and each holds what the last write that fitted
gave it, or zero. The log has a debug record for each byte that the font refused, in the order of the
writes and from the lowest address up in each. Whether a next write succeeds depends only on whether it
fits; one that does not changes and reports nothing. Blocks are read as their bytes are. -/
theorem last_write_wins (ws : List Write) :
    let left := zeroed.writeAll ws
    (∀ k : Int, left.memory.read8 k =
      if 0 ≤ k ∧ k ≤ 0xFFF then
        .ok ((latest? (Write.gives? · k) (ws.filter (·.Fits))).getD 0)
      else .error ⟨.read, k, 1⟩) ∧
    left.records = (ws.filter (·.Fits)).flatMap (fun w => w.refused.map Record.dropped) ∧
    (∀ record ∈ left.records, record.level = .debug) ∧
    (∀ w : Write, ((∃ stored, left.memory.write? w = .ok stored) ↔ w.Fits) ∧
      (¬ w.Fits → left.memory.write w = ⟨left.memory, []⟩)) ∧
    ∀ address length : Int, left.memory.readBlock address length =
      if address < 0 ∨ length < 0 ∨ 0x1000 < address + length then
        .error ⟨.read, address, length⟩
      else (List.range length.toNat).mapM fun i : Nat => left.memory.read8 (address + i) := by
  intro left
  have hrecords := records_writeAll ws zeroed
  refine ⟨fun k => ?_, hrecords, ?_, fun w => ⟨exists_write?_eq_ok_iff, write_of_not_fits⟩,
    fun address length => readBlock_eq _ _ _⟩
  · by_cases hk : 0 ≤ k ∧ k ≤ 0xFFF
    · have hnat : ((k.toNat : Nat) : Int) = k := Int.toNat_of_nonneg hk.1
      rw [if_pos hk, read8_eq_ok hk, byte_writeAll, byte_zeroed, hnat]
    · rw [if_neg hk, read8_eq_error hk]
  · intro record hrecord
    rw [hrecords, List.mem_flatMap] at hrecord
    obtain ⟨w, -, hw⟩ := hrecord
    obtain ⟨dropped, -, rfl⟩ := List.mem_map.mp hw
    rfl

end Memory

end Chip8
