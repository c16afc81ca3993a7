import Chip8.Keypad.Literal
import Chip8.Proofs.HexLiterals

/-!
# Texts that name a key

A text names a key if it is a literal in base sixteen whose integer is the index of a key. A text that is
no literal and a literal that is no index are refused with different messages.

* `Keypad.parse_error_cases` — what a text is refused for
* `Keypad.key_literals_exact` — every text of printable ASCII
-/

namespace Chip8

open Text.IntLiteral Text.Quoted

theorem KeyLiteralError.message_ne (s t : String) : (malformed s).message ≠ (outside t).message := by
  have hmalformed : ("not a hex key: " ++ quote s).toList.head? = some 'n' := by
    rw [String.toList_append]
    rfl
  have houtside : ("key must be 0-F, got " ++ quote t).toList.head? = some 'k' := by
    rw [String.toList_append]
    rfl
  intro h
  have hfirst := congrArg (fun m => m.toList.head?) h
  exact absurd (hmalformed.symm.trans (hfirst.trans houtside)) (by decide)

namespace Keypad

variable {text : String}

theorem key?_eq_none_iff {n : Int} : key? n = none ↔ ¬ (0 ≤ n ∧ n ≤ 15) := by
  unfold key?
  by_cases h : 0 ≤ n ∧ n < 16
  · rw [dif_pos h]
    refine iff_of_false nofun ?_
    omega
  · rw [dif_neg h]
    refine iff_of_true rfl ?_
    omega

theorem parse_eq_malformed_iff :
    parse text = .error (.malformed text) ↔ parse? 16 text = none := by
  unfold parse
  cases parse? 16 text with
  | none => simp
  | some n =>
    simp only
    cases key? n <;> simp

theorem parse_eq_outside_iff :
    parse text = .error (.outside text) ↔ ∃ n, parse? 16 text = some n ∧ ¬ (0 ≤ n ∧ n ≤ 15) := by
  unfold parse
  cases parse? 16 text with
  | none => simp
  | some n =>
    simp only [Option.some.injEq, exists_eq_left', ← key?_eq_none_iff]
    cases key? n <;> simp

theorem parse_error_cases {e : KeyLiteralError} (h : parse text = .error e) :
    e = .malformed text ∨ e = .outside text := by
  unfold parse at h
  split at h
  · exact .inl (Except.error.inj h).symm
  split at h
  · cases h
  · exact .inr (Except.error.inj h).symm

/-- The message tells what a text is refused for. -/
theorem mapError_message_parse_iff {e : KeyLiteralError} (he : e = .malformed text ∨ e = .outside text) :
    (parse text).mapError KeyLiteralError.message = .error e.message ↔ parse text = .error e := by
  constructor
  · intro h
    cases hparse : parse text with
    | ok key =>
      rw [hparse] at h
      cases h
    | error e' =>
      rw [hparse] at h
      have hmessage : e'.message = e.message := Except.error.inj h
      rcases parse_error_cases hparse with rfl | rfl <;> rcases he with rfl | rfl
      · rfl
      · exact absurd hmessage (KeyLiteralError.message_ne text text)
      · exact absurd hmessage.symm (KeyLiteralError.message_ne text text)
      · rfl
  · intro h
    rw [h]
    rfl

/-- **What names a key.** A text of printable ASCII names the key whose index it denotes as a literal in
base sixteen with spaces around it. A literal that denotes no index is refused with one message and a text
that is no literal with another. Zeros before the digits of a literal change nothing, however many they
are. -/
theorem key_literals_exact (hprintable : ∀ c ∈ text.toList, 0x20 ≤ c.toNat ∧ c.toNat ≤ 0x7E) :
    (∀ key : Nibble, parse text = .ok key ↔ ∃ l : HexLiteral, l.In text ∧ l.value = key.val) ∧
    ((parse text).mapError KeyLiteralError.message = .error ("key must be 0-F, got " ++ quote text) ↔
      ∃ l : HexLiteral, l.In text ∧ ¬ (0 ≤ l.value ∧ l.value ≤ 15)) ∧
    ((parse text).mapError KeyLiteralError.message = .error ("not a hex key: " ++ quote text) ↔
      ¬ ∃ l : HexLiteral, l.In text) ∧
    ∀ (l : HexLiteral) (k : Nat) (longer : String), l.In text → (l.withZeros k).In longer →
      ∀ key : Nibble, parse longer = .ok key ↔ parse text = .ok key := by
  refine ⟨fun key => ?_, ?_, ?_, fun l k longer htext hlonger key => ?_⟩
  · rw [parse_eq_ok_iff]
    exact parse?_eq_some_iff hprintable
  · refine (mapError_message_parse_iff (.inr rfl)).trans (parse_eq_outside_iff.trans ?_)
    constructor
    · rintro ⟨n, hn, hrange⟩
      obtain ⟨l, hin, rfl⟩ := (parse?_eq_some_iff hprintable).mp hn
      exact ⟨l, hin, hrange⟩
    · rintro ⟨l, hin, hrange⟩
      exact ⟨l.value, l.parse?_of_in hin, hrange⟩
  · refine (mapError_message_parse_iff (.inl rfl)).trans (parse_eq_malformed_iff.trans ?_)
    constructor
    · rintro hnone ⟨l, hin⟩
      rw [l.parse?_of_in hin] at hnone
      cases hnone
    · intro hno
      refine Option.eq_none_iff_forall_ne_some.mpr fun n hn => hno ?_
      obtain ⟨l, hin, _⟩ := (parse?_eq_some_iff hprintable).mp hn
      exact ⟨l, hin⟩
  · rw [parse_eq_ok_iff, parse_eq_ok_iff, l.parse?_of_in htext,
      (l.withZeros k).parse?_of_in hlonger, l.value_withZeros]

theorem key_literals_exact_of_spaced :
    (∀ c ∈ "  +0X_0_b ".toList, 0x20 ≤ c.toNat ∧ c.toNat ≤ 0x7E) ∧ parse "  +0X_0_b " = .ok 0xB := by
  have hprintable : ∀ c ∈ "  +0X_0_b ".toList, 0x20 ≤ c.toNat ∧ c.toNat ≤ 0x7E := by simp
  have hzero : IsHexDigit '0' 0 := ⟨by decide, .inl rfl⟩
  have hb : IsHexDigit 'b' 11 := ⟨by decide, .inr (by decide)⟩
  refine ⟨hprintable, ((key_literals_exact hprintable).1 0xB).mpr ?_⟩
  exact ⟨⟨.plus, ['0', 'X', '_'], ['0', '_', 'b'], [0, 11], by decide, .spaced hzero (.last hb)⟩,
    ⟨2, 1, rfl⟩, rfl⟩

/-- There is no marker for base two: b is a digit. -/
example : parse "0b" = .ok 0xB ∧ parse "0x" = .error (.malformed "0x") := by decide

end Keypad

end Chip8
