/-!
# Hexadecimal text

Numbers are printed in upper-case hex, padded with zeros to a least width. A sign takes one place of
the width and stands before the zeros: -1 in three places is -01. A number that needs more places
than the width gets them.

Reading (`ofDigits?`) takes digits of either case, so it reads back what `digits` prints. With a sign
(`ofSigned?`) it reads back any integer in any number of places.

## Termination

`digits` divides by sixteen until one digit is left.
-/

namespace Chip8.Text.Hex

/-! ## Single digits -/

/-- The character of a digit below sixteen. -/
def digit (d : Nat) : Char := Char.ofNat (if d < 10 then 0x30 + d else 0x37 + d)

/-- The value of a digit, in either case. -/
def digitValue (c : Char) : Option Nat :=
  let n := c.toNat
  if 0x30 ≤ n && n ≤ 0x39 then some (n - 0x30)
  else if 0x41 ≤ n && n ≤ 0x46 then some (n - 0x37)
  else if 0x61 ≤ n && n ≤ 0x66 then some (n - 0x57)
  else none

/-- A printed digit reads back. -/
theorem digitValue_digit {d : Nat} (h : d < 16) : digitValue (digit d) = some d := by
  have every : ∀ e : Fin 16, digitValue (digit e) = some e.val := by decide
  exact every ⟨d, h⟩

/-- An upper-case digit is what its value prints as. -/
theorem digit_of_digitValue {c : Char} {v : Nat} (hc : c.toNat < 0x61)
    (h : digitValue c = some v) : digit v = c := by
  unfold digitValue at h
  simp only [Bool.and_eq_true, decide_eq_true_eq] at h
  unfold digit
  split at h
  · cases h
    rw [if_pos (by omega), show 0x30 + (c.toNat - 0x30) = c.toNat by omega, Char.ofNat_toNat]
  · split at h
    · cases h
      rw [if_neg (by omega), show 0x37 + (c.toNat - 0x37) = c.toNat by omega, Char.ofNat_toNat]
    · rw [if_neg (by omega)] at h
      cases h

/-! ## Whole numbers -/

/-- The digits of a natural number, high to low, with no leading zero but for zero itself. -/
def digits (n : Nat) : List Char :=
  if n < 16 then [digit n] else digits (n / 16) ++ [digit (n % 16)]
termination_by n
decreasing_by exact Nat.div_lt_self (by omega) (by omega)

/-- The number that a list of digits denotes; nothing if one of them is no digit. -/
def ofDigits? (cs : List Char) : Option Nat :=
  cs.foldlM (fun n c => (digitValue c).map (16 * n + ·)) 0

theorem ofDigits?_digits (n : Nat) : ofDigits? (digits n) = some n := by
  induction n using Nat.strongRecOn with
  | _ n ih =>
    rw [digits]
    split
    · next h => simp [ofDigits?, digitValue_digit h]
    · next h =>
      have hq := ih (n / 16) (Nat.div_lt_self (by omega) (by omega))
      unfold ofDigits? at hq ⊢
      rw [List.foldlM_append, hq]
      simp only [List.foldlM_cons, List.foldlM_nil, Option.bind_eq_bind, Option.bind_some,
        digitValue_digit (show n % 16 < 16 by omega), Option.map_some]
      exact congrArg some (by omega)

theorem length_digits_le {k : Nat} : ∀ {n : Nat}, n < Nat.pow 16 (k + 1) →
    (digits n).length ≤ k + 1 := by
  induction k with
  | zero =>
    intro n hn
    have h16 : n < 16 := hn
    simp [digits, h16]
  | succ k ih =>
    intro n hn
    have hq : n / 16 < Nat.pow 16 (k + 1) := by
      refine Nat.div_lt_of_lt_mul ?_
      rw [Nat.mul_comm]
      exact hn
    have hlength := ih hq
    rw [digits]
    split
    · simp
    · simp
      omega

/-! ## Padding -/

/-- An integer in at least `width` places, as a list of characters. -/
def paddedChars (width : Nat) (n : Int) : List Char :=
  let sign := if n < 0 then ['-'] else []
  let ds := digits n.natAbs
  sign ++ List.replicate (width - sign.length - ds.length) '0' ++ ds

/-- An integer in at least `width` places; a sign counts as a place. -/
def padded (width : Nat) (n : Int) : String := String.ofList (paddedChars width n)

theorem paddedChars_of_nonneg (width : Nat) {n : Int} (h : 0 ≤ n) :
    paddedChars width n =
      List.replicate (width - (digits n.toNat).length) '0' ++ digits n.toNat := by
  have habs : n.natAbs = n.toNat := by omega
  unfold paddedChars
  simp [if_neg (Int.not_lt.mpr h), habs]

/-- A number that needs no more than its places takes just these. -/
theorem length_paddedChars (width : Nat) {n : Int} (h : 0 ≤ n)
    (hn : n.toNat < Nat.pow 16 (width + 1)) : (paddedChars (width + 1) n).length = width + 1 := by
  have hlength := length_digits_le hn
  rw [paddedChars_of_nonneg _ h, List.length_append, List.length_replicate]
  omega

theorem ofDigits?_zeros (k : Nat) (ds : List Char) :
    ofDigits? (List.replicate k '0' ++ ds) = ofDigits? ds := by
  induction k with
  | zero => rfl
  | succ k ih => exact ih

/-- Padding does not change the number. -/
theorem ofDigits?_paddedChars (width : Nat) {n : Int} (h : 0 ≤ n) :
    ofDigits? (paddedChars width n) = some n.toNat := by
  rw [paddedChars_of_nonneg width h, ofDigits?_zeros, ofDigits?_digits]

/-- The integer that digits with an optional minus sign denote. -/
def ofSigned? : List Char → Option Int
  | '-' :: ds => (ofDigits? ds).map fun n => -(n : Int)
  | ds => (ofDigits? ds).map Int.ofNat

/-! ## Reading back -/

theorem exists_digit_of_mem_digits {c : Char} {n : Nat} (h : c ∈ digits n) :
    ∃ d : Fin 16, c = digit d := by
  induction n using Nat.strongRecOn with
  | _ n ih =>
    rw [digits] at h
    split at h
    · next hn => exact ⟨⟨n, hn⟩, List.mem_singleton.mp h⟩
    · rcases List.mem_append.mp h with hhigh | hlow
      · exact ih (n / 16) (Nat.div_lt_self (by omega) (by omega)) hhigh
      · exact ⟨⟨n % 16, Nat.mod_lt _ (by omega)⟩, List.mem_singleton.mp hlow⟩

/-- A character that is no digit does not stand in a padded number, but for its sign. -/
theorem not_mem_zeros_digits {c : Char} (hc : ∀ d : Fin 16, c ≠ digit d) (k n : Nat) :
    c ∉ List.replicate k '0' ++ digits n := by
  intro h
  rcases List.mem_append.mp h with hzero | hdigit
  · exact hc 0 (List.eq_of_mem_replicate hzero)
  · obtain ⟨d, hd⟩ := exists_digit_of_mem_digits hdigit
    exact hc d hd

theorem paddedChars_of_neg (width : Nat) {n : Int} (h : n < 0) : paddedChars width n =
    '-' :: (List.replicate (width - 1 - (digits n.natAbs).length) '0' ++ digits n.natAbs) := by
  unfold paddedChars
  simp [h]

theorem blank_not_mem_paddedChars (width : Nat) (n : Int) : ' ' ∉ paddedChars width n := by
  have hblank : ∀ d : Fin 16, ' ' ≠ digit d := by decide
  by_cases h : n < 0
  · rw [paddedChars_of_neg width h]
    exact List.not_mem_cons_of_ne_of_not_mem (by decide) (not_mem_zeros_digits hblank _ _)
  · rw [paddedChars_of_nonneg width (Int.not_lt.mp h)]
    exact not_mem_zeros_digits hblank _ _

theorem ofSigned?_of_not_mem {ds : List Char} (h : '-' ∉ ds) :
    ofSigned? ds = (ofDigits? ds).map Int.ofNat := by
  unfold ofSigned?
  split
  · exact absurd List.mem_cons_self h
  · rfl

/-- A padded number reads back, whatever its sign and however many places it takes. -/
theorem ofSigned?_paddedChars (width : Nat) (n : Int) : ofSigned? (paddedChars width n) = some n := by
  by_cases h : n < 0
  · rw [paddedChars_of_neg width h, ofSigned?, ofDigits?_zeros, ofDigits?_digits]
    exact congrArg some (show -(n.natAbs : Int) = n by omega)
  · have hpos : 0 ≤ n := Int.not_lt.mp h
    have hminus : '-' ∉ paddedChars width n := by
      rw [paddedChars_of_nonneg width hpos]
      exact not_mem_zeros_digits (by decide) _ _
    rw [ofSigned?_of_not_mem hminus, ofDigits?_paddedChars width hpos]
    exact congrArg some (Int.toNat_of_nonneg hpos)

end Chip8.Text.Hex
