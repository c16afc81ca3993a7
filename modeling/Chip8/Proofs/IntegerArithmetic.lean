import Chip8.Proofs.Alu
import Mathlib.Data.Int.Bitwise

/-!
# Arithmetic on integers

The operations take integers of any size and sign. A quotient by a power of two that is rounded to the
floor is a shift of the two's complement, and the remainder is what a mask of ones keeps, also where the
number is negative. So the operations can be read as shifts and masks (`Alu.Masked`) as well as by division
(`Alu.Floored`). With quotients cut towards zero the two readings would part below zero.

* `Alu.land_ones` — masks and remainders
* `Alu.integer_laws` — the operations in both readings
-/

namespace Chip8.Alu

/-! ## Masks -/

theorem ldiff_ones (m k : Nat) : Nat.ldiff (2 ^ k - 1) m = 2 ^ k - (m % 2 ^ k + 1) := by
  have hlt : m % 2 ^ k < 2 ^ k := Nat.mod_lt m (Nat.two_pow_pos k)
  refine Nat.eq_of_testBit_eq fun i => ?_
  rw [Nat.testBit_ldiff, Nat.testBit_two_pow_sub_one, Nat.testBit_two_pow_sub_succ hlt,
    Nat.testBit_mod_two_pow]
  by_cases hi : i < k <;> simp [hi]

/-- A mask of ones keeps the remainder, of a negative number too. -/
theorem land_ones (n : Int) (k : Nat) : n.land (2 ^ k - 1 : Nat) = n % (2 ^ k : Nat) := by
  have hpos : 0 < 2 ^ k := Nat.two_pow_pos k
  cases n with
  | ofNat m =>
    show ((m &&& (2 ^ k - 1) : Nat) : Int) = _
    rw [Nat.and_two_pow_sub_one_eq_mod, Int.ofNat_eq_natCast, Int.natCast_mod]
  | negSucc m =>
    -- the bits of a negative number are those that `m` lacks
    have hlt : m % 2 ^ k < 2 ^ k := Nat.mod_lt m hpos
    show ((Nat.ldiff (2 ^ k - 1) m : Nat) : Int) = _
    rw [ldiff_ones, Int.negSucc_emod _ (by exact_mod_cast hpos)]
    omega

/-! ## Single operations -/

theorem toInt_flag_shr8 (a : Int) : (shr8 a).flag.toInt = a % 2 := by
  have hhalf := shr8_eq a
  have hresult : (shr8 a).result = a / 2 := rfl
  omega

theorem toInt_flag_shl8 (a : Int) : (shl8 a).flag.toInt = a / 128 % 2 := by
  unfold shl8
  rcases Int.emod_two_eq (a / 128) with h | h <;> simp [h, Bool.toInt]

/-- The tens and the units of any number are digits. -/
theorem digits_bcd (v : Int) :
    (0 ≤ (bcd v).2.1 ∧ (bcd v).2.1 ≤ 9) ∧ 0 ≤ (bcd v).2.2 ∧ (bcd v).2.2 ≤ 9 := by
  unfold bcd
  simp only
  omega

theorem hundreds_bcd {v : Int} (h : IsByte v) : 0 ≤ (bcd v).1 ∧ (bcd v).1 ≤ 2 := by
  obtain ⟨hlow, hhigh⟩ := h
  unfold bcd
  simp only
  omega

/-! ## Two operations -/

/-- A sum undoes a difference, up to the low byte. -/
theorem addWrapping_sub8 (a b : Int) : addWrapping (sub8 a b).result b = a % 256 := by
  unfold addWrapping sub8
  simp only
  omega

/-- The two differences of a pair cancel each other. -/
theorem sub8_add_sub8 (a b : Int) : ((sub8 a b).result + (sub8 b a).result) % 256 = 0 := by
  unfold sub8
  simp only
  omega

theorem flag_sub8_and_iff (a b : Int) :
    (sub8 a b).flag = true ∧ (sub8 b a).flag = true ↔ a = b := by
  unfold sub8
  simp only [decide_eq_true_eq]
  omega

theorem flag_sub8_of_ne {a b : Int} (h : a ≠ b) : (sub8 a b).flag = !(sub8 b a).flag := by
  unfold sub8
  rw [← decide_not]
  refine decide_eq_decide.mpr ?_
  omega

/-! ## The two readings -/

/-- The operations as shifts and masks of the two's complement. -/
structure Masked (a b : Int) : Prop where
  sum : (add8 a b).result = (a + b).land 0xFF
  wrapped : addWrapping a b = (a + b).land 0xFF
  difference : (sub8 a b).result = (a - b).land 0xFF
  half : (shr8 a).result = a >>> (1 : Nat)
  halfOut : (shr8 a).flag.toInt = a.land 1
  double : (shl8 a).result = (a <<< (1 : Nat)).land 0xFF
  doubleOut : (shl8 a).flag.toInt = (a >>> (7 : Nat)).land 1

/-- The operations with quotients and remainders that are rounded to the floor. -/
structure Floored (a b v : Int) : Prop where
  sum : (add8 a b).result = (a + b).fmod 256
  wrapped : (add8 a b).result = addWrapping a b
  carry : (add8 a b).flag = true ↔ 255 < a + b
  difference : (sub8 a b).result = (a - b).fmod 256
  kept : (sub8 a b).flag = true ↔ b ≤ a
  undone : addWrapping (sub8 a b).result b = a.fmod 256
  cancelled : ((sub8 a b).result + (sub8 b a).result).fmod 256 = 0
  bothKept : (sub8 a b).flag = true ∧ (sub8 b a).flag = true ↔ a = b
  oneKept : a ≠ b → (sub8 a b).flag = !(sub8 b a).flag
  half : a = 2 * (shr8 a).result + (shr8 a).flag.toInt
  halfOut : (shr8 a).flag.toInt = 0 ∨ (shr8 a).flag.toInt = 1
  double : (shl8 a).result = (2 * a).fmod 256
  doubleOut : (shl8 a).flag.toInt = (a.fdiv 128).fmod 2
  number : 100 * (bcd v).1 + 10 * (bcd v).2.1 + (bcd v).2.2 = v
  digits : (0 ≤ (bcd v).2.1 ∧ (bcd v).2.1 ≤ 9) ∧ 0 ≤ (bcd v).2.2 ∧ (bcd v).2.2 ≤ 9
  hundreds : IsByte v → 0 ≤ (bcd v).1 ∧ (bcd v).1 ≤ 2

theorem masked (a b : Int) : Masked a b where
  sum := (land_ones (a + b) 8).symm
  wrapped := (land_ones (a + b) 8).symm
  difference := (land_ones (a - b) 8).symm
  half := (Int.shiftRight_eq_div_pow a 1).symm
  halfOut := (toInt_flag_shr8 a).trans (land_ones a 1).symm
  double := by
    rw [Int.shiftLeft_eq, mul_comm]
    exact (land_ones (2 * a) 8).symm
  doubleOut := by
    rw [toInt_flag_shl8, Int.shiftRight_eq_div_pow]
    exact (land_ones (a / 128) 1).symm

theorem floored (a b v : Int) : Floored a b v where
  sum := (Int.fmod_eq_emod_of_nonneg _ (by decide)).symm
  wrapped := add8_result a b
  carry := decide_eq_true_iff
  difference := (Int.fmod_eq_emod_of_nonneg _ (by decide)).symm
  kept := decide_eq_true_iff
  undone := (addWrapping_sub8 a b).trans (Int.fmod_eq_emod_of_nonneg _ (by decide)).symm
  cancelled := (Int.fmod_eq_emod_of_nonneg _ (by decide)).trans (sub8_add_sub8 a b)
  bothKept := flag_sub8_and_iff a b
  oneKept := flag_sub8_of_ne
  half := shr8_eq a
  halfOut := by cases (shr8 a).flag <;> decide
  double := (Int.fmod_eq_emod_of_nonneg _ (by decide)).symm
  doubleOut := by
    rw [Int.fmod_eq_emod_of_nonneg _ (by decide), Int.fdiv_eq_ediv_of_nonneg _ (by decide)]
    exact toInt_flag_shl8 a
  number := bcd_eq v
  digits := digits_bcd v
  hundreds := hundreds_bcd

/-- **Arithmetic keeps its laws on all integers.** Whatever the operands are, negative ones and those that
are no bytes included, the operations are the shifts and masks of their two's complement, and they keep the
laws of division with a remainder that is never negative. -/
theorem integer_laws (a b v : Int) : Masked a b ∧ Floored a b v := ⟨masked a b, floored a b v⟩

/-- Below zero a half is rounded down, and so are the hundreds. -/
example : shr8 (-5) = ⟨-3, true⟩ ∧ bcd (-1) = (-1, 9, 9) := by decide

end Chip8.Alu
