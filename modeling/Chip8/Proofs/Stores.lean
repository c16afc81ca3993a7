import Chip8.Proofs.Footprint
import Mathlib.Data.List.Basic

/-!
# Blocks of memory and stores

A block is a list of bytes, so blocks are cut and compared as lists. A store that succeeds changes just
the bytes of its block that lie outside the font (`Memory.byte_writeBlock`) and reports the others
(`Memory.dropped_storeBytes`). It is the only way in which a step changes memory
(`Core.StepsTo.memory_cases`).
-/

namespace Chip8

namespace Memory

variable {m m' : Memory}

/-! ## Blocks -/

theorem block_congr {start count : Nat}
    (h : ∀ a ∈ List.range' start count, m.byte a = m'.byte a) :
    m.block start count = m'.block start count :=
  List.map_congr_left h

theorem getElem?_block (m : Memory) (start : Nat) {count k : Nat} (h : k < count) :
    (m.block start count)[k]? = some (m.byte (start + k)) := by
  unfold block
  rw [List.getElem?_map, List.getElem?_range' h, Nat.one_mul, Option.map_some]

/-- A block inside a block. -/
theorem take_drop_block (m : Memory) (start : Nat) {count skip length : Nat}
    (h : skip + length ≤ count) :
    ((m.block start count).drop skip).take length = m.block (start + skip) length := by
  unfold block
  rw [← List.map_drop, ← List.map_take, List.drop_range', Nat.mul_one,
    List.take_range'_of_length_ge (by omega)]

theorem InRange.toNat_add_le {address : Int} {length : Nat} (h : InRange address length) :
    address.toNat + length ≤ 4096 := by
  obtain ⟨hlow, _, hhigh⟩ := h
  omega

/-! ## Stores -/

/-- A store takes place just if its block lies inside memory. -/
theorem writeBlock_eq_ok_iff {address : Int} {data : List Byte} {stored : Stored} :
    m.writeBlock address data = .ok stored ↔
      InRange address data.length ∧ m.storeBytes address.toNat data = stored := by
  rw [writeBlock_eq]
  by_cases hin : InRange address data.length
  · simp [hin]
  · simp [hin]

/-- A store changes just the bytes of its block that lie outside the font. -/
theorem byte_writeBlock {address : Int} {data : List Byte} {stored : Stored}
    (h : m.writeBlock address data = .ok stored) (k : Nat) :
    stored.memory.byte k =
      if address ≤ k ∧ k < address + data.length ∧ 80 ≤ k then data[k - address.toNat]?.getD 0
      else m.byte k := by
  obtain ⟨hin, rfl⟩ := writeBlock_eq_ok_iff.mp h
  have hlow : 0 ≤ address := hin.1
  rw [byte_storeBytes data m address.toNat k hin.toNat_add_le]
  congr 1
  apply propext
  omega

/-- A store reports the bytes of its block that lie in the font, from the lowest address up. -/
theorem dropped_storeBytes (bs : List Byte) : ∀ (m : Memory) (start : Nat),
    (m.storeBytes start bs).dropped =
      (List.range' start (Font.size - start)).filterMap fun k => bs[k - start]?.map (⟨k, ·⟩) := by
  induction bs with
  | nil =>
    intro m start
    simp [storeBytes]
  | cons b rest ih =>
    intro m start
    have hrest : ∀ k ∈ List.range' (start + 1) (Font.size - (start + 1)),
        ((b :: rest)[k - start]?.map fun v => (⟨k, v⟩ : DroppedWrite)) =
          rest[k - (start + 1)]?.map fun v => ⟨k, v⟩ := by
      intro k hk
      rw [List.mem_range'_1] at hk
      rw [show k - start = (k - (start + 1)) + 1 by omega, List.getElem?_cons_succ]
    rw [storeBytes, storeByte]
    by_cases hfont : start < Font.size
    · rw [if_pos hfont, show Font.size - start = (Font.size - (start + 1)) + 1 by omega,
        List.range'_succ, List.filterMap_cons, Nat.sub_self, List.getElem?_cons_zero,
        List.filterMap_congr hrest, ← ih m (start + 1)]
      rfl
    · rw [if_neg hfont, show Font.size - start = 0 by omega]
      show [] ++ ((m.set start b).storeBytes (start + 1) rest).dropped = _
      rw [ih (m.set start b) (start + 1), show Font.size - (start + 1) = 0 by omega]
      rfl

end Memory

/-! ## Steps -/

namespace Opcode

/-- The bytes that an instruction stores at the index register. -/
def stores? (op : Opcode) (w : Word) (r : Registers) : Option (List Byte) :=
  match op with
  | .ldBVx => some (r.get w.x).decimalDigits
  | .ldMemVx => some (r.upTo w.x)
  | _ => none

variable {op : Opcode} {w : Word} {c next : Core}

/-- An instruction leaves memory, or stores its bytes at the index register. -/
theorem Yields.memory_cases (h : op.Yields w c next) :
    (op.stores? w c.regs = none ∧ next.memory = c.memory) ∨
      ∃ data stored, op.stores? w c.regs = some data ∧
        c.memory.writeBlock c.regs.i data = .ok stored ∧ next.memory = stored.memory := by
  have hframe := h.frame
  cases op with
  | ldBVx | ldMemVx =>
    refine h.of_ensures (ensures_writeIndexed fun hin => ?_)
    exact Or.inr ⟨_, _, rfl, Memory.writeBlock_eq_ok_iff.mpr ⟨hin, rfl⟩, rfl⟩
  | _ => exact Or.inl ⟨rfl, hframe.memory (by decide)⟩

end Opcode

/-- A step leaves memory, or executes an instruction that stores at the index register. -/
theorem Core.StepsTo.memory_cases {c next : Core} (h : c.StepsTo next) :
    next.memory = c.memory ∨
      ∃ w op data stored, c.fetch = .ok w ∧ Opcode.ofWord? w = some op ∧
        op.stores? w c.regs = some data ∧ c.memory.writeBlock c.regs.i data = .ok stored ∧
        next.memory = stored.memory := by
  cases h with
  | faulted => exact Or.inl rfl
  | skipped => exact Or.inl rfl
  | executed hfetch hop h =>
    rcases h.memory_cases with ⟨_, hsame⟩ | ⟨data, stored, hdata, hstored, hnext⟩
    · exact Or.inl hsame
    · exact Or.inr ⟨_, _, data, stored, hfetch, hop, hdata, hstored, hnext⟩

end Chip8
