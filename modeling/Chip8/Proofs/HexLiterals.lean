import Chip8.Text.IntLiteral
import Mathlib.Data.List.TakeWhile
import Mathlib.Data.Nat.Digits.Defs

/-!
# Integer literals in base sixteen

The texts that are read as an integer in base sixteen, told as a grammar: spaces, a sign, a marker of the
base, digits with single underscores between them, spaces. The parts do not run into each other. The x of
a marker is no digit, so a zero before it can only belong to the marker, and digits neither begin with an
underscore nor hold a sign or a blank; b is a digit, so 0b is no marker.

* `IntLiteral.digits?_eq_some_iff` — digits
* `IntLiteral.magnitude?_eq_some_iff` — digits after a marker
* `IntLiteral.HexLiteral` — a literal in its parts
* `IntLiteral.parse?_eq_some_iff` — texts of printable ASCII
-/

namespace Chip8.Text.IntLiteral

/-! ## Digits -/

/-- The character is a digit of base sixteen, in either case, and this is its value. -/
def IsHexDigit (c : Char) (d : Nat) : Prop :=
  d < 16 ∧ (c = Hex.digit d ∨ c = (Hex.digit d).toLower)

/-- The text is one or more digits of base sixteen, with at most one underscore between two neighbours,
and these are the values of the digits. -/
inductive HexDigits : List Char → List Nat → Prop
  | last {c d} (h : IsHexDigit c d) : HexDigits [c] [d]
  | next {c d cs ds} (h : IsHexDigit c d) (hs : HexDigits cs ds) : HexDigits (c :: cs) (d :: ds)
  | spaced {c d cs ds} (h : IsHexDigit c d) (hs : HexDigits cs ds) :
      HexDigits (c :: '_' :: cs) (d :: ds)

theorem lt_of_digitValue {c : Char} {d : Nat} (h : Hex.digitValue c = some d) : c.toNat < 0x67 := by
  unfold Hex.digitValue at h
  grind

theorem digitValue_eq_some_iff {c : Char} {d : Nat} :
    Hex.digitValue c = some d ↔ IsHexDigit c d := by
  constructor
  · intro h
    have every : ∀ n : Fin 0x67, ∀ e ∈ Hex.digitValue (Char.ofNat n),
        e < 16 ∧ (Char.ofNat n = Hex.digit e ∨ Char.ofNat n = (Hex.digit e).toLower) := by decide
    have hc := every ⟨c.toNat, lt_of_digitValue h⟩ d
    rw [Char.ofNat_toNat] at hc
    exact hc h
  · have every : ∀ e : Fin 16, Hex.digitValue (Hex.digit e).toLower = some e.val := by decide
    rintro ⟨hd, rfl | rfl⟩
    · exact Hex.digitValue_digit hd
    · exact every ⟨d, hd⟩

theorem digitIn?_eq_some_iff {c : Char} {d : Nat} : digitIn? 16 c = some d ↔ IsHexDigit c d := by
  rw [← digitValue_eq_some_iff]
  unfold digitIn?
  cases h : Hex.digitValue c with
  | none => rfl
  | some e => simp [(digitValue_eq_some_iff.mp h).1]

theorem not_isHexDigit_of_digitIn? {c : Char} (h : digitIn? 16 c = none) (d : Nat) :
    ¬ IsHexDigit c d := by
  rw [← digitIn?_eq_some_iff, h]
  exact nofun

section Digits

variable {c : Char} {d : Nat} {cs : List Char} {ds : List Nat}

namespace HexDigits

theorem ne_nil (h : HexDigits cs ds) : cs ≠ [] := by
  cases h <;> exact List.cons_ne_nil _ _

theorem exists_cons (h : HexDigits (c :: cs) ds) : ∃ d rest, IsHexDigit c d ∧ ds = d :: rest := by
  cases h with
  | last h | next h _ | spaced h _ => exact ⟨_, _, h, rfl⟩

theorem head_ne_underscore (h : HexDigits (c :: cs) ds) : c ≠ '_' := by
  obtain ⟨d, _, hd, _⟩ := h.exists_cons
  rintro rfl
  exact not_isHexDigit_of_digitIn? rfl d hd

/-- What follows a digit: nothing, digits, or an underscore and digits. -/
theorem cons_iff (hc : IsHexDigit c d) : HexDigits (c :: cs) (d :: ds) ↔
    (cs = [] ∧ ds = []) ∨ HexDigits cs ds ∨ ∃ rest, cs = '_' :: rest ∧ HexDigits rest ds := by
  constructor
  · intro h
    cases h with
    | last _ => exact .inl ⟨rfl, rfl⟩
    | next _ hs => exact .inr (.inl hs)
    | spaced _ hs => exact .inr (.inr ⟨_, rfl, hs⟩)
  · rintro (⟨rfl, rfl⟩ | hs | ⟨rest, rfl, hs⟩)
    · exact .last hc
    · exact .next hc hs
    · exact .spaced hc hs

end HexDigits

theorem digits?_cons_eq_some_iff
    (h : ∀ {d ds}, IsHexDigit c d → (moreDigits? 16 cs = some ds ↔ HexDigits (c :: cs) (d :: ds))) :
    digits? 16 (c :: cs) = some ds ↔ HexDigits (c :: cs) ds := by
  simp only [digits?, Option.bind_eq_bind, Option.bind_eq_some_iff, digitIn?_eq_some_iff,
    Option.some.injEq]
  constructor
  · rintro ⟨d, hd, rest, hrest, rfl⟩
    exact (h hd).mp hrest
  · intro hs
    obtain ⟨d, rest, hd, rfl⟩ := hs.exists_cons
    exact ⟨d, hd, rest, (h hd).mpr hs, rfl⟩

theorem moreDigits?_eq_some_iff (hc : IsHexDigit c d) :
    moreDigits? 16 cs = some ds ↔ HexDigits (c :: cs) (d :: ds) := by
  fun_induction moreDigits? 16 cs generalizing c d ds with
  | case1 =>
    have hnil : ¬ HexDigits [] ds := fun h => h.ne_nil rfl
    simp [HexDigits.cons_iff hc, hnil, eq_comm]
  | case2 next cs ih =>
    refine (digits?_cons_eq_some_iff ih).trans ?_
    rw [HexDigits.cons_iff hc]
    constructor
    · exact fun hs => .inr (.inr ⟨_, rfl, hs⟩)
    · rintro (⟨h, _⟩ | hs | ⟨rest, h, hs⟩)
      · cases h
      · exact absurd rfl hs.head_ne_underscore
      · cases h
        exact hs
  | case3 next cs hpair ih =>
    refine (digits?_cons_eq_some_iff ih).trans ?_
    rw [HexDigits.cons_iff hc]
    constructor
    · exact fun hs => .inr (.inl hs)
    · rintro (⟨h, _⟩ | hs | ⟨rest, h, hs⟩)
      · cases h
      · exact hs
      · -- an underscore with digits after it would have been read as the case before
        obtain ⟨rfl, rfl⟩ := List.cons.inj h
        obtain ⟨e, rest, rfl⟩ := List.exists_cons_of_ne_nil hs.ne_nil
        exact (hpair e rest rfl rfl).elim

theorem digits?_eq_some_iff : digits? 16 cs = some ds ↔ HexDigits cs ds := by
  cases cs with
  | nil => exact ⟨nofun, fun h => absurd rfl h.ne_nil⟩
  | cons c cs => exact digits?_cons_eq_some_iff fun hc => moreDigits?_eq_some_iff hc

/-- The digits stand high to low. -/
theorem ofDigits_eq (base : Nat) (ds : List Nat) :
    ofDigits base ds = Nat.ofDigits base ds.reverse := by
  simp [Nat.ofDigits_eq_foldr, ofDigits, add_comm]

end Digits

/-! ## Markers -/

/-- What may stand before the digits to tell the base. -/
def markers : List (List Char) := [[], ['0', 'x'], ['0', 'X'], ['0', 'x', '_'], ['0', 'X', '_']]

section Markers

variable {cs digits : List Char} {ds : List Nat} {n : Nat}

theorem mem_markers {x : Char} (hx : x = 'x' ∨ x = 'X') :
    ['0', x] ∈ markers ∧ ['0', x, '_'] ∈ markers := by
  rcases hx with rfl | rfl <;> decide

theorem exists_marker (cs : List Char) : ∃ marker ∈ markers, cs = marker ++ afterMarker 16 cs := by
  unfold afterMarker
  split
  · next x cs =>
    by_cases hx : x = 'x' ∨ x = 'X'
    · exact ⟨['0', x, '_'], (mem_markers hx).2, by simp [hx]⟩
    · exact ⟨[], by decide, by simp [hx]⟩
  · next x cs _ =>
    by_cases hx : x = 'x' ∨ x = 'X'
    · exact ⟨['0', x], (mem_markers hx).1, by simp [hx]⟩
    · exact ⟨[], by decide, by simp [hx]⟩
  · exact ⟨[], by decide, rfl⟩

/-- Digits do not begin like a marker. -/
theorem HexDigits.not_marked {x : Char} (h : HexDigits ('0' :: x :: cs) ds) :
    ¬ (x = 'x' ∨ x = 'X') := by
  cases h with
  | next _ hs =>
    obtain ⟨d, _, hd, _⟩ := hs.exists_cons
    rintro (rfl | rfl) <;> exact not_isHexDigit_of_digitIn? rfl d hd
  | spaced _ _ => decide

theorem afterMarker_append {marker : List Char} (hm : marker ∈ markers) (h : HexDigits digits ds) :
    afterMarker 16 (marker ++ digits) = digits := by
  obtain ⟨c, rest, rfl⟩ := List.exists_cons_of_ne_nil h.ne_nil
  have hc := h.head_ne_underscore
  obtain rfl | rfl | rfl | rfl | rfl : marker = [] ∨ marker = ['0', 'x'] ∨ marker = ['0', 'X'] ∨
      marker = ['0', 'x', '_'] ∨ marker = ['0', 'X', '_'] := by simpa [markers] using hm
  · show afterMarker 16 (c :: rest) = c :: rest
    unfold afterMarker
    split
    · next heq =>
      rw [heq] at h
      simp [heq, h.not_marked]
    · next heq =>
      rw [heq] at h
      simp [heq, h.not_marked]
    · rfl
  -- the digits do not begin with an underscore, so the marker takes none of them
  · simp [afterMarker, hc]
  · simp [afterMarker, hc]
  · simp [afterMarker]
  · simp [afterMarker]

theorem magnitude?_eq_some_iff : magnitude? 16 cs = some n ↔ ∃ marker ∈ markers, ∃ digits ds,
    HexDigits digits ds ∧ cs = marker ++ digits ∧ n = Nat.ofDigits 16 ds.reverse := by
  have hread : magnitude? 16 cs = (digits? 16 (afterMarker 16 cs)).map (ofDigits 16) := by
    unfold magnitude?
    cases digits? 16 (afterMarker 16 cs) <;> simp
  rw [hread, Option.map_eq_some_iff]
  constructor
  · rintro ⟨ds, hds, rfl⟩
    obtain ⟨marker, hm, hcs⟩ := exists_marker cs
    exact ⟨marker, hm, _, ds, digits?_eq_some_iff.mp hds, hcs, ofDigits_eq 16 ds⟩
  · rintro ⟨marker, hm, digits, ds, hds, rfl, rfl⟩
    rw [afterMarker_append hm hds]
    exact ⟨ds, digits?_eq_some_iff.mpr hds, ofDigits_eq 16 ds⟩

end Markers

/-! ## Signs -/

/-- A sign before a literal, or none. -/
inductive Sign
  | none
  | plus
  | minus
deriving DecidableEq, Repr

def Sign.text : Sign → List Char
  | none => []
  | plus => ['+']
  | minus => ['-']

/-- What a sign makes of a number. -/
def Sign.apply : Sign → Nat → Int
  | none, m | plus, m => m
  | minus, m => -m

/-- The character stands for itself, and it is neither a blank nor a sign. -/
def Plain (c : Char) : Prop := c.toNat < 0x7F ∧ isAsciiBlank c = false ∧ c ≠ '-' ∧ c ≠ '+'

instance (c : Char) : Decidable (Plain c) := inferInstanceAs (Decidable (_ ∧ _))

theorem IsHexDigit.plain {c : Char} {d : Nat} (h : IsHexDigit c d) : Plain c := by
  have every : ∀ e : Fin 16, Plain (Hex.digit e) ∧ Plain (Hex.digit e).toLower := by decide
  obtain ⟨hd, rfl | rfl⟩ := h
  · exact (every ⟨d, hd⟩).1
  · exact (every ⟨d, hd⟩).2

theorem plain_of_mem_marker {marker : List Char} (hm : marker ∈ markers) : ∀ c ∈ marker, Plain c := by
  have every : ∀ m ∈ markers, m.all (fun c => decide (Plain c)) = true := by decide
  simpa only [List.all_eq_true, decide_eq_true_eq] using every marker hm

theorem HexDigits.plain {cs : List Char} {ds : List Nat} (h : HexDigits cs ds) :
    ∀ c ∈ cs, Plain c := by
  induction h with
  | last h => exact List.forall_mem_singleton.mpr h.plain
  | next h _ ih => exact List.forall_mem_cons.mpr ⟨h.plain, ih⟩
  | spaced h _ ih =>
    exact List.forall_mem_cons.mpr ⟨h.plain, List.forall_mem_cons.mpr ⟨by decide, ih⟩⟩

theorem exists_sign (cs : List Char) : ∃ (sign : Sign) (rest : List Char), cs = sign.text ++ rest ∧
    signed? 16 cs = (magnitude? 16 rest).map sign.apply := by
  unfold signed?
  split
  · next rest =>
    refine ⟨.minus, rest, rfl, ?_⟩
    cases magnitude? 16 rest <;> rfl
  · next rest => exact ⟨.plus, rest, rfl, rfl⟩
  · exact ⟨.none, cs, rfl, rfl⟩

theorem signed?_sign (sign : Sign) {cs : List Char} (h : ∀ c ∈ cs, Plain c) :
    signed? 16 (sign.text ++ cs) = (magnitude? 16 cs).map sign.apply := by
  cases sign with
  | none =>
    show signed? 16 cs = _
    unfold signed?
    split
    · exact absurd rfl (h _ List.mem_cons_self).2.2.1
    · exact absurd rfl (h _ List.mem_cons_self).2.2.2
    · rfl
  | plus => rfl
  | minus =>
    rw [show Sign.minus.text ++ cs = '-' :: cs from rfl, signed?]
    cases magnitude? 16 cs <;> rfl

/-! ## Literals -/

/-- A literal in base sixteen, in its parts. -/
structure HexLiteral where
  sign : Sign
  marker : List Char
  digits : List Char
  values : List Nat
  isMarker : marker ∈ markers
  spelled : HexDigits digits values

namespace HexLiteral

/-- The literal as it is written. -/
def chars (l : HexLiteral) : List Char := l.sign.text ++ (l.marker ++ l.digits)

/-- The integer that the literal denotes. -/
def value (l : HexLiteral) : Int := l.sign.apply (Nat.ofDigits 16 l.values.reverse)

theorem plain_body (l : HexLiteral) : ∀ c ∈ l.marker ++ l.digits, Plain c :=
  List.forall_mem_append.mpr ⟨plain_of_mem_marker l.isMarker, l.spelled.plain⟩

theorem signed?_chars (l : HexLiteral) : signed? 16 l.chars = some l.value := by
  have hread : magnitude? 16 (l.marker ++ l.digits) = some (Nat.ofDigits 16 l.values.reverse) :=
    magnitude?_eq_some_iff.mpr ⟨l.marker, l.isMarker, l.digits, l.values, l.spelled, rfl, rfl⟩
  unfold chars value
  rw [signed?_sign l.sign l.plain_body, hread, Option.map_some]

theorem exists_of_signed? {cs : List Char} {n : Int} (h : signed? 16 cs = some n) :
    ∃ l : HexLiteral, l.chars = cs ∧ l.value = n := by
  obtain ⟨sign, rest, rfl, hread⟩ := exists_sign cs
  obtain ⟨m, hm, rfl⟩ := Option.map_eq_some_iff.mp (hread.symm.trans h)
  obtain ⟨marker, hmarker, digits, ds, hds, rfl, rfl⟩ := magnitude?_eq_some_iff.mp hm
  exact ⟨⟨sign, marker, digits, ds, hmarker, hds⟩, rfl, rfl⟩

theorem chars_ne_nil (l : HexLiteral) : l.chars ≠ [] := by
  simp [chars, l.spelled.ne_nil]

theorem visible (l : HexLiteral) : ∀ c ∈ l.chars, c.toNat < 0x7F ∧ isAsciiBlank c = false := by
  have hsign : ∀ sign : Sign, ∀ c ∈ sign.text, c.toNat < 0x7F ∧ isAsciiBlank c = false := by
    intro sign
    cases sign with
    | none => exact List.forall_mem_nil _
    | plus | minus => exact List.forall_mem_singleton.mpr (by decide)
  refine List.forall_mem_append.mpr ⟨hsign l.sign, fun c hc => ?_⟩
  obtain ⟨hascii, hblank, _⟩ := l.plain_body c hc
  exact ⟨hascii, hblank⟩

end HexLiteral

/-! ## Spaces -/

section Spaces

variable {cs : List Char}

theorem dropWhile_spaces (k : Nat) (h : ∀ c ∈ cs.head?, isAsciiBlank c = false) :
    (List.replicate k ' ' ++ cs).dropWhile isAsciiBlank = cs := by
  have hblank : ∀ c ∈ List.replicate k ' ', isAsciiBlank c = true := by
    intro c hc
    rw [List.eq_of_mem_replicate hc]
    decide
  rw [List.dropWhile_append_of_pos hblank]
  cases cs with
  | nil => rfl
  | cons c cs => exact List.dropWhile_cons_of_neg (by simp [h c rfl])

theorem trim_spaces (left right : Nat) (hne : cs ≠ []) (h : ∀ c ∈ cs, isAsciiBlank c = false) :
    trim (List.replicate left ' ' ++ cs ++ List.replicate right ' ') = cs := by
  have hfirst : ∀ c ∈ (cs ++ List.replicate right ' ').head?, isAsciiBlank c = false := by
    obtain ⟨c, cs, rfl⟩ := List.exists_cons_of_ne_nil hne
    rintro _ ⟨⟩
    exact h c List.mem_cons_self
  have hlast : ∀ c ∈ cs.reverse.head?, isAsciiBlank c = false := fun c hc =>
    h c (List.mem_reverse.mp (List.mem_of_mem_head? hc))
  unfold trim
  rw [List.append_assoc, dropWhile_spaces left hfirst, List.reverse_append, List.reverse_replicate,
    dropWhile_spaces right hlast, List.reverse_reverse]

/-- The only blank that is printable is the space. -/
theorem exists_spaces (h : ∀ c ∈ cs, 0x20 ≤ c.toNat) :
    ∃ k, cs = List.replicate k ' ' ++ cs.dropWhile isAsciiBlank := by
  refine ⟨(cs.takeWhile isAsciiBlank).length, ?_⟩
  have hspaces : cs.takeWhile isAsciiBlank = List.replicate (cs.takeWhile isAsciiBlank).length ' ' := by
    refine List.eq_replicate_of_mem fun c hc => ?_
    have hblank := List.mem_takeWhile_imp hc
    have hlow := h c ((List.takeWhile_prefix _).subset hc)
    unfold isAsciiBlank at hblank
    simp only [Bool.or_eq_true, Bool.and_eq_true, decide_eq_true_eq] at hblank
    exact hblank.resolve_right (by omega)
  rw [← hspaces, List.takeWhile_append_dropWhile]

theorem exists_trim (h : ∀ c ∈ cs, 0x20 ≤ c.toNat) : ∃ left right,
    cs = List.replicate left ' ' ++ trim cs ++ List.replicate right ' ' := by
  obtain ⟨left, hleft⟩ := exists_spaces h
  have hrest : ∀ c ∈ (cs.dropWhile isAsciiBlank).reverse, 0x20 ≤ c.toNat := fun c hc =>
    h c ((List.dropWhile_suffix _).subset (List.mem_reverse.mp hc))
  obtain ⟨right, hright⟩ := exists_spaces hrest
  have hback := congrArg List.reverse hright
  rw [List.reverse_reverse, List.reverse_append, List.reverse_replicate] at hback
  refine ⟨left, right, ?_⟩
  unfold trim
  rw [List.append_assoc, ← hback, ← hleft]

end Spaces

/-! ## Texts -/

/-- The text is the literal with spaces around it. -/
def HexLiteral.In (l : HexLiteral) (text : String) : Prop :=
  ∃ left right, text.toList = List.replicate left ' ' ++ l.chars ++ List.replicate right ' '

theorem mapM_asciiFor? {cs : List Char} (h : ∀ c ∈ cs, c.toNat < 0x7F) :
    cs.mapM asciiFor? = some cs := by
  induction cs with
  | nil => rfl
  | cons c cs ih =>
    have hc : asciiFor? c = some c := if_pos (h c List.mem_cons_self)
    simp [List.mapM_cons, hc, ih fun c hc => h c (List.mem_cons_of_mem _ hc)]

section Texts

variable {text : String} {n : Int}

theorem HexLiteral.parse?_of_in {l : HexLiteral} (h : l.In text) : parse? 16 text = some l.value := by
  obtain ⟨left, right, htext⟩ := h
  have hascii : ∀ c ∈ text.toList, c.toNat < 0x7F := by
    rw [htext]
    simp only [List.mem_append, List.mem_replicate]
    rintro c ((⟨_, rfl⟩ | hc) | ⟨_, rfl⟩)
    · decide
    · exact (l.visible c hc).1
    · decide
  unfold parse?
  rw [mapM_asciiFor? hascii, htext]
  simp only [Option.bind_eq_bind, Option.bind_some]
  rw [trim_spaces left right l.chars_ne_nil fun c hc => (l.visible c hc).2]
  exact l.signed?_chars

/-- A text of printable ASCII denotes an integer if it is a literal with spaces around it. -/
theorem parse?_eq_some_iff (hprintable : ∀ c ∈ text.toList, 0x20 ≤ c.toNat ∧ c.toNat ≤ 0x7E) :
    parse? 16 text = some n ↔ ∃ l : HexLiteral, l.In text ∧ l.value = n := by
  constructor
  · intro h
    have hascii : ∀ c ∈ text.toList, c.toNat < 0x7F := fun c hc =>
      Nat.lt_succ_of_le (hprintable c hc).2
    unfold parse? at h
    rw [mapM_asciiFor? hascii] at h
    obtain ⟨l, hchars, hvalue⟩ := HexLiteral.exists_of_signed? h
    obtain ⟨left, right, htext⟩ := exists_trim fun c hc => (hprintable c hc).1
    exact ⟨l, ⟨left, right, hchars ▸ htext⟩, hvalue⟩
  · rintro ⟨l, hin, rfl⟩
    exact l.parse?_of_in hin

end Texts

/-! ## Leading zeros -/

theorem HexDigits.zeros {cs : List Char} {ds : List Nat} (h : HexDigits cs ds) (k : Nat) :
    HexDigits (List.replicate k '0' ++ cs) (List.replicate k 0 ++ ds) := by
  induction k with
  | zero => exact h
  | succ k ih =>
    have hzero : IsHexDigit '0' 0 := ⟨by decide, .inl rfl⟩
    exact .next hzero ih

namespace HexLiteral

/-- The literal with zeros before its digits. -/
def withZeros (l : HexLiteral) (k : Nat) : HexLiteral where
  sign := l.sign
  marker := l.marker
  digits := List.replicate k '0' ++ l.digits
  values := List.replicate k 0 ++ l.values
  isMarker := l.isMarker
  spelled := l.spelled.zeros k

theorem value_withZeros (l : HexLiteral) (k : Nat) : (l.withZeros k).value = l.value := by
  unfold value withZeros
  simp only [List.reverse_append, List.reverse_replicate, Nat.ofDigits_append_replicate_zero]

end HexLiteral

end Chip8.Text.IntLiteral
