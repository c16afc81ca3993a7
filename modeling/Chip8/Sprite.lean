/-!
# Sprites

A sprite is a list of rows drawn from a corner downwards. A row is any integer, of which the low
eight bits are pixels, the highest one leftmost. `points` lists the places of the set bits on an
unbounded plane, in drawing order: row by row, from left to right.
-/

namespace Chip8.Sprite

/-- The number of pixels in a row. -/
def width : Nat := 8

/-- A place on the unbounded plane, column first. -/
abbrev Point := Int × Int

/-- The pixel `j` places from the left of a row is set. -/
def bit (row : Int) (j : Nat) : Bool := decide ((row >>> (7 - j)) % 2 = 1)

/-- A pixel is a binary digit of its row. -/
theorem bit_eq_true_iff {row : Int} {j : Nat} : bit row j = true ↔ row / Nat.pow 2 (7 - j) % 2 = 1 := by
  unfold bit
  rw [decide_eq_true_iff, Int.shiftRight_eq_div_pow]
  exact Iff.rfl

/-- The set pixels of one row. -/
def rowPoints (x y row : Int) : List Point :=
  ((List.range width).filter (bit row)).map fun (j : Nat) => (x + j, y)

/-- The set pixels of a sprite with its corner at a place. -/
def points (x y : Int) : List Int → List Point
  | [] => []
  | row :: rows => rowPoints x y row ++ points x (y + 1) rows

/-- A sprite moved by a vector has its points moved by it. -/
theorem points_shift (dx dy : Int) (rows : List Int) : ∀ (x y : Int),
    points (x + dx) (y + dy) rows = (points x y rows).map fun p => (p.1 + dx, p.2 + dy) := by
  induction rows with
  | nil => exact fun _ _ => rfl
  | cons row rows ih =>
    intro x y
    rw [points, points, List.map_append, ← ih x (y + 1),
      show y + dy + 1 = y + 1 + dy from Int.add_right_comm y dy 1]
    congr 1
    unfold rowPoints
    rw [List.map_map]
    refine List.map_congr_left fun j _ => ?_
    exact congrArg (·, y + dy) (Int.add_right_comm x dx j)

end Chip8.Sprite
