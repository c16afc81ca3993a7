import Chip8.Opcode.Pattern
import Chip8.Proofs.Decode

/-!
# Words and the patterns that they fit

The look-up tells an instruction by a word's key. A pattern tells it by the word's four digits. Both
pick out the same words (`Opcode.ofWord?_eq_some_iff_matches`), so a statement may name the words it
is about the way they are written: `w.Fits "6xkk"`.
-/

namespace Chip8

namespace Word

/-- The digits of the word fit a written pattern. -/
def Fits (w : Word) (pattern : String) : Prop :=
  Opcode.placesAccept pattern.toList w.digits = true

instance (w : Word) (pattern : String) : Decidable (w.Fits pattern) :=
  inferInstanceAs (Decidable (_ = true))

/-- The field that holds the sub-tag of a group. -/
def subTag (w : Word) : Nat → Option Nat
  | 0x0 => some w.nnn
  | 0x5 | 0x8 | 0x9 => some w.n
  | 0xE | 0xF => some w.kk.toNat
  | _ => none

theorem key_eq_iff {w : Word} {k : Key} :
    w.key = k ↔ w.group.val = k.group ∧ w.subTag k.group = k.subTag := by
  cases k with
  | mk group subTag =>
    show Key.mk w.group (w.subTag w.group) = _ ↔ _
    rw [Key.mk.injEq]
    exact and_congr_right fun hgroup => by rw [hgroup]

theorem nnn_eq_digits (w : Word) : w.nnn = 256 * w.x + 16 * w.y + w.n := by
  have hgroup := w.toNat_eq_group_nnn
  have hdigits := w.toNat_eq_digits
  omega

/-- A pattern of four places is met place by place. -/
theorem fits_iff {w : Word} {pattern : String} {a b c d : Char} (h : pattern.toList = [a, b, c, d]) :
    w.Fits pattern ↔ Opcode.placeAccepts a w.group ∧ Opcode.placeAccepts b w.x ∧
      Opcode.placeAccepts c w.y ∧ Opcode.placeAccepts d w.n := by
  unfold Fits digits
  rw [h]
  simp [Opcode.placesAccept]

end Word

namespace Opcode

theorem placeAccepts_letter {c : Char} (hc : ['x', 'y', 'n', 'k'].contains c = true) (d : Nibble) :
    placeAccepts c d = true := by
  unfold placeAccepts
  rw [hc, Bool.true_or]

/-- A place below the small letters stands for one digit. -/
theorem placeAccepts_iff {c : Char} (hc : c.toNat < 0x61) {d : Nibble} :
    placeAccepts c d = true ↔ Text.Hex.digitValue c = some d.val := by
  unfold placeAccepts
  constructor
  · intro h
    rcases Bool.or_eq_true_iff.mp h with hletter | hdigit
    · obtain rfl | rfl | rfl | rfl : c = 'x' ∨ c = 'y' ∨ c = 'n' ∨ c = 'k' := by simpa using hletter
      all_goals exact absurd hc (by decide)
    · rw [eq_of_beq hdigit]
      exact Text.Hex.digitValue_digit d.isLt
  · intro h
    rw [Text.Hex.digit_of_digitValue hc h, beq_self_eq_true, Bool.or_true]

/-- The words with an instruction's key are those that fit its pattern. -/
theorem ofWord?_eq_some_iff_matches {w : Word} {op : Opcode} :
    ofWord? w = some op ↔ op.Matches w := by
  rw [ofWord?_eq_some_iff, Word.key_eq_iff]
  unfold Matches Word.digits
  -- a sub-tag and the digits of its field are two readings of one number
  have hkk := w.toNat_kk_eq_digits
  have hnnn := w.nnn_eq_digits
  have hx := w.x.isLt
  have hy := w.y.isLt
  have hn := w.n.isLt
  cases op <;>
    simp [key, Word.subTag, pattern, placesAccept, placeAccepts_letter, placeAccepts_iff,
      Text.Hex.digitValue, -Fin.val_eq_zero_iff] <;>
    omega

/-- A supported word fits the pattern of its instruction. -/
theorem fits_of_ofWord? {w : Word} {op : Opcode} (h : ofWord? w = some op) : w.Fits op.pattern :=
  ofWord?_eq_some_iff_matches.mp h

end Opcode

namespace Word

theorem fits_pattern_iff {w : Word} (op : Opcode) : w.Fits op.pattern ↔ Opcode.ofWord? w = some op :=
  Opcode.ofWord?_eq_some_iff_matches.symm

/-- A supported word fits no pattern but that of its instruction. -/
theorem eq_of_fits_of_ofWord? {w : Word} {op op' : Opcode} (hop : Opcode.ofWord? w = some op)
    (h : w.Fits op'.pattern) : op = op' := by
  rw [fits_pattern_iff, hop] at h
  exact Option.some.inj h

/-- A word that is no instruction fits no pattern. -/
theorem not_fits_of_unsupported {w : Word} (hop : Opcode.ofWord? w = none) (op : Opcode) :
    ¬ w.Fits op.pattern := by
  rw [fits_pattern_iff, hop]
  exact nofun

/-- A word fits the pattern of at most one instruction. -/
theorem eq_of_fits {w : Word} {op op' : Opcode} (h : w.Fits op.pattern) (h' : w.Fits op'.pattern) :
    op = op' := by
  rw [fits_pattern_iff] at h h'
  exact Option.some.inj (h.symm.trans h')

/-- The digits of the word fit one of some written patterns. -/
def FitsAny (w : Word) (patterns : List String) : Prop := ∃ p ∈ patterns, w.Fits p

theorem fitsAny_of_mem {w : Word} {op : Opcode} {ops : List Opcode} (hop : Opcode.ofWord? w = some op)
    (h : op ∈ ops) : w.FitsAny (ops.map Opcode.pattern) :=
  ⟨op.pattern, List.mem_map_of_mem h, Opcode.fits_of_ofWord? hop⟩

end Word

end Chip8
