import Chip8.Proofs.ScreenViews
import Mathlib.Data.Nat.Count

/-!
# What a drawing leaves

A drawing flips cells one after the other, and each flip sees what the flips before it left. A sprite
that wraps around can meet its own pixels, so it is not obvious that the old screen tells the outcome.
It does: a cell is flipped once for each bit of the sprite that falls on it (`Screen.bitsOn`), and some
flip meets a lit cell just if a cell that is flipped was lit, or is flipped twice.

* `Screen.count_cells_eq_card` — how often a cell is flipped, by the bits of the sprite
* `Screen.collided_flipAll_eq_false_iff_nodup` — when no flip meets a lit cell
* `Screen.flipAll_flipAll`, `Screen.collided_twice_iff` — the same cells flipped twice
* `FrameBuffer.drawing_law` — every drawing on a frame buffer that has cells
-/

namespace Chip8

namespace Screen

variable {width height : Nat}

/-! ## The bits that fall on a cell -/

/-- The bit `j` places from the left of a row at `(x, y)` is set and falls on the cell. The low eight
bits of a row are drawn, whatever its sign. -/
def Covers (c : Cell width height) (x y row : Int) (j : Nat) : Prop :=
  row / 2 ^ (7 - j) % 2 = 1 ∧ (x + j) % width = c.1 ∧ y % height = c.2

instance (c : Cell width height) (x y row : Int) (j : Nat) : Decidable (Covers c x y row j) :=
  inferInstanceAs (Decidable (_ ∧ _))

/-- The bits of a sprite that fall on a cell, each as its row and its place in the row. -/
def bitsOn (x y : Int) (rows : List Int) (c : Cell width height) : Finset (Fin rows.length × Fin 8) :=
  Finset.univ.filter fun b => Covers c x (y + b.1) rows[b.1] b.2

theorem countP_rowPoints (x y row : Int) (c : Cell width height) :
    (Sprite.rowPoints x y row).countP
        (fun p : Sprite.Point => p.1 % width = c.1 ∧ p.2 % height = c.2) =
      (Finset.univ.filter fun j : Fin 8 => Covers c x y row j).card := by
  rw [Sprite.rowPoints, List.countP_map, List.countP_filter, Finset.card_filter,
    Fin.sum_univ_eq_sum_range (fun j => if Covers c x y row j then 1 else 0) 8,
    ← Finset.card_filter, ← Nat.count_eq_card_filter_range, Nat.count]
  refine List.countP_congr fun j _ => ?_
  simp [Covers, Sprite.bit_eq_true_iff, and_comm]

theorem hits_eq_sum (x : Int) (c : Cell width height) (rows : List Int) : ∀ y : Int,
    hits x y rows c =
      ∑ i : Fin rows.length, (Finset.univ.filter fun j : Fin 8 => Covers c x (y + i) rows[i] j).card := by
  induction rows with
  | nil => exact fun _ => rfl
  | cons row rows ih =>
    intro y
    have hrest := ih (y + 1)
    unfold hits at hrest ⊢
    rw [Sprite.points, List.countP_append, countP_rowPoints, hrest]
    refine Eq.trans ?_ (Fin.sum_univ_succ _).symm
    simp [Int.add_assoc, Int.add_comm 1]

/-- A cell is flipped once for each bit that falls on it. -/
theorem count_cells_eq_card (hw : 0 < width) (hh : 0 < height) (x y : Int) (rows : List Int)
    (c : Cell width height) : (cells hw hh x y rows).count c = (bitsOn x y rows c).card := by
  rw [count_cells, hits_eq_sum, bitsOn, Finset.card_filter, Fintype.sum_prod_type]
  simp only [Finset.card_filter]

/-! ## Collisions -/

/-- No flip meets a lit cell just if the cells are dark and each is flipped once. -/
theorem collided_flipAll_eq_false_iff_nodup (cs : List (Cell width height)) :
    ∀ s : Screen width height,
      (s.flipAll cs).collided = false ↔ cs.Nodup ∧ ∀ c ∈ cs, s.lit c = false := by
  induction cs with
  | nil => simp [flipAll]
  | cons c cs ih =>
    intro s
    show (s.lit c || ((s.flip c).flipAll cs).collided) = false ↔ _
    rw [Bool.or_eq_false_iff, ih, List.nodup_cons, List.forall_mem_cons]
    constructor
    · rintro ⟨hc, hnodup, hdark⟩
      -- the first flip lights `c`, so a second one would meet a lit cell
      have hnew : c ∉ cs := fun hmem => by simpa [lit_flip, hc] using hdark c hmem
      refine ⟨⟨hnew, hnodup⟩, hc, fun d hd => ?_⟩
      have hne : d ≠ c := fun he => hnew (he ▸ hd)
      simpa [lit_flip, hne] using hdark d hd
    · rintro ⟨⟨hnew, hnodup⟩, hc, hdark⟩
      refine ⟨hc, hnodup, fun d hd => ?_⟩
      have hne : d ≠ c := fun he => hnew (he ▸ hd)
      rw [lit_flip, if_neg hne]
      exact hdark d hd

theorem collided_flipAll_iff (cs : List (Cell width height)) (s : Screen width height) :
    (s.flipAll cs).collided = true ↔
      ∃ c, 2 ≤ cs.count c ∨ (1 ≤ cs.count c ∧ s.lit c = true) := by
  rw [← Bool.not_eq_false, collided_flipAll_eq_false_iff_nodup, List.nodup_iff_count_le_one]
  constructor
  · intro h
    by_contra hnone
    push Not at hnone
    refine h ⟨fun c => Nat.le_of_lt_succ (hnone c).1, fun c hc => ?_⟩
    exact Bool.eq_false_iff.mpr ((hnone c).2 (List.one_le_count_iff.mpr hc))
  · rintro ⟨c, htwice | ⟨honce, hlit⟩⟩ ⟨hnodup, hdark⟩
    · have hc := hnodup c
      omega
    · rw [hdark c (List.one_le_count_iff.mp honce)] at hlit
      cases hlit

/-! ## Twice the same cells -/

/-- Flips undo themselves. -/
theorem flipAll_flipAll (cs : List (Cell width height)) (s : Screen width height) :
    ((s.flipAll cs).screen.flipAll cs).screen = s := by
  refine ext_lit fun c => ?_
  rw [lit_flipAll, lit_flipAll, Bool.xor_assoc, Bool.xor_self, Bool.xor_false]

/-- Flips that are made twice meet a lit cell, the first time or the second, unless there are none. -/
theorem collided_twice_iff (cs : List (Cell width height)) (s : Screen width height) :
    ((s.flipAll cs).collided = true ∨ ((s.flipAll cs).screen.flipAll cs).collided = true) ↔
      cs ≠ [] := by
  constructor
  · rintro h rfl
    simp [flipAll] at h
  · intro hne
    obtain ⟨c, hc⟩ := List.exists_mem_of_ne_nil cs hne
    by_contra hnone
    obtain ⟨hfirst, hsecond⟩ := not_or.mp hnone
    rw [Bool.not_eq_true, collided_flipAll_eq_false_iff_nodup] at hfirst hsecond
    -- flipped once from dark, the cell is lit when the flips are made again
    have hlit : (s.flipAll cs).screen.lit c = true := by
      rw [lit_flipAll, hfirst.2 c hc, List.count_eq_one_of_mem hfirst.1 hc]
      rfl
    rw [hsecond.2 c hc] at hlit
    cases hlit

end Screen

namespace FrameBuffer

variable {width height : Nat}

/-- **The law of drawing.** On a frame buffer that has cells every drawing succeeds, a cell changes just
if an odd number of the sprite's bits fall on it, the keys stay, and the answer is yes just if two bits
fall on one cell or one falls on a cell that was lit. -/
theorem drawing_law (hw : 0 < width) (hh : 0 < height) (fb : FrameBuffer width height) (x y : Int)
    (rows : List Int) : ∃ hit next, fb.draw x y rows = .ok (hit, next) ∧
      (∀ c, next.screen.lit c = (fb.screen.lit c ^^ decide (Odd (Screen.bitsOn x y rows c).card))) ∧
      next.keys = fb.keys ∧
      (hit = true ↔ ∃ c, 2 ≤ (Screen.bitsOn x y rows c).card ∨
        (1 ≤ (Screen.bitsOn x y rows c).card ∧ fb.screen.lit c = true)) := by
  refine ⟨_, _, draw_eq_ok hw hh fb x y rows, fun c => ?_, rfl, ?_⟩
  · simp only [Screen.lit_flipAll, Screen.count_cells_eq_card, Nat.odd_iff]
  · simp only [Screen.collided_flipAll_iff, Screen.count_cells_eq_card]

/-- A row of eight bits wraps around a screen three cells wide: two cells are flipped three times, the one
between them twice. -/
theorem drawing_law_of_wrapped_row : 0 < 3 ∧ 0 < 2 ∧
    ∃ hit next, ({} : FrameBuffer 3 2).draw (-1) 3 [-1] = .ok (hit, next) ∧ hit = true ∧
      next.screen.lit (0, 1) = true ∧ next.screen.lit (1, 1) = false ∧
      next.screen.lit (2, 1) = true ∧ next.screen.lit (1, 0) = false := by
  obtain ⟨hit, next, hdraw, hlit, _, hhit⟩ :=
    drawing_law (by decide) (by decide) ({} : FrameBuffer 3 2) (-1) 3 [-1]
  refine ⟨by decide, by decide, hit, next, hdraw, hhit.mpr ⟨(1, 1), Or.inl (by decide)⟩, ?_⟩
  refine ⟨(hlit _).trans ?_, (hlit _).trans ?_, (hlit _).trans ?_, (hlit _).trans ?_⟩ <;> decide

end FrameBuffer

end Chip8
