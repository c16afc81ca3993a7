import Chip8.Proofs.Patterns
import Chip8.Proofs.Step
import Mathlib.Data.List.Nodup

/-!
# From a word to its instruction

The table gives each instruction a key, a pattern and a name. A word is looked up by its key; the pattern
is how the table is written and the name is what a trace shows. The three columns are three descriptions
of one set of words, and the machine executes what the look-up found.

* `Opcode.lookup_eq_ok_iff`, `Opcode.lookup_eq_error_iff` — the look-up, by patterns
* `Opcode.mnemonic_injective` — a name stands for one instruction
* `Word.decoded_as_written` — the word of any integer
-/

namespace Chip8

namespace Opcode

theorem lookup_eq_ok_iff {w : Word} {pc : Option Int} {op : Opcode} :
    lookup w pc = .ok op ↔ op.Matches w := by
  rw [← ofWord?_eq_some_iff_matches]
  unfold lookup
  cases ofWord? w <;> simp

/-- The look-up fails on the words that fit no pattern, and says which word it was and where. -/
theorem lookup_eq_error_iff {w : Word} {pc : Option Int} {u : UnsupportedWord} :
    lookup w pc = .error u ↔ u = ⟨w, pc⟩ ∧ ∀ op : Opcode, ¬ op.Matches w := by
  simp only [← ofWord?_eq_some_iff_matches]
  unfold lookup
  cases ofWord? w <;> simp [eq_comm]

/-- No two instructions have one name. -/
theorem mnemonic_injective : Function.Injective mnemonic := by
  have hnames : (all.map mnemonic).Nodup := by decide +kernel
  intro op op' h
  exact List.inj_on_of_nodup_map hnames (mem_all op) (mem_all op') h

/-- The name that the look-up gives is that of the instruction whose pattern the word fits. -/
theorem map_mnemonic_lookup_eq_ok_iff {w : Word} {pc : Option Int} {op : Opcode} :
    (lookup w pc).map mnemonic = .ok op.mnemonic ↔ op.Matches w := by
  rw [map_eq_ok_iff]
  constructor
  · rintro ⟨op', hlookup, hname⟩
    obtain rfl := mnemonic_injective hname
    exact lookup_eq_ok_iff.mp hlookup
  · exact fun h => ⟨op, lookup_eq_ok_iff.mpr h, rfl⟩

end Opcode

/-- What is known of the word `w` of an integer `n` and of its look-up at `pc`. -/
structure Word.Decoded (n : Int) (pc : Option Int) (w : Word) : Prop where
  word : (w.toNat : Int) = n % 65536
  address : w.toNat = 4096 * w.group + w.nnn
  /-- Each digit is below sixteen by its type. -/
  digits : w.toNat = 4096 * w.group + 256 * w.x + 16 * w.y + w.n
  byte : w.kk.toNat = 16 * w.y + w.n
  accepted : ∀ op : Opcode, (Opcode.lookup w pc).map Opcode.mnemonic = .ok op.mnemonic ↔ op.Matches w
  unique : ∀ op op' : Opcode, op.Matches w → op'.Matches w → op = op'
  refused : ∀ u, Opcode.lookup w pc = .error u ↔ u = ⟨w, pc⟩ ∧ ∀ op : Opcode, ¬ op.Matches w
  /-- The name stands for an instruction, and a machine that fetches the word executes it. -/
  handled : ∀ name, (Opcode.lookup w pc).map Opcode.mnemonic = .ok name →
    ∃ op : Opcode, op.mnemonic = name ∧ (∀ op' : Opcode, op'.mnemonic = name → op' = op) ∧
      ∀ {σ : Type} [Surface σ] (m : Machine σ), m.core.fetch = .ok w →
        m.step = Machine.perform op w m.core.tick m.surface

/-- **Words are decoded as the table is written.** The fields of a word are its digits, the look-up
accepts just the words that fit a pattern, which then is the only one, and each instruction that it can
name is one that the machine executes. -/
theorem Word.decoded_as_written (n : Int) (pc : Option Int) : Word.Decoded n pc (Word.ofInt n) where
  word := Word.toNat_ofInt n
  address := Word.toNat_eq_group_nnn _
  digits := Word.toNat_eq_digits _
  byte := Word.toNat_kk_eq_digits _
  accepted _ := Opcode.map_mnemonic_lookup_eq_ok_iff
  unique _ _ := Word.eq_of_fits
  refused _ := Opcode.lookup_eq_error_iff
  handled name h := by
    obtain ⟨op, hlookup, rfl⟩ := map_eq_ok_iff.mp h
    refine ⟨op, rfl, fun _ hname => Opcode.mnemonic_injective hname, fun m hfetch => ?_⟩
    exact Machine.step_of_ofWord? hfetch
      (Opcode.ofWord?_eq_some_iff_matches.mpr (Opcode.lookup_eq_ok_iff.mp hlookup))

end Chip8
