import Chip8.Attempt
import Chip8.Sprite

/-!
# The screen

A grid of cells, each lit or dark. A sprite is drawn by flipping the cells under its points one after
the other; points outside the grid wrap around on both axes. A flip of a lit cell is a collision. A
sprite may wrap onto itself, and then the same cell flips more than once.

On a screen without cells there is nothing to wrap around to. A drawing goes pixel by pixel
(`drawRows`) and fails where it needs a cell and there is none. As a whole it flips all its cells, or has
changed none when it fails (`drawRows_eq`).
-/

namespace Chip8

/-- A grid of `width` times `height` cells. -/
structure Screen (width height : Nat) where
  rows : Vector (Vector Bool width) height
deriving DecidableEq

namespace Screen

variable {width height : Nat}

/-- The place of a cell: its column and its row. -/
abbrev Cell (width height : Nat) := Fin width × Fin height

/-- Every cell is dark. -/
def dark : Screen width height := ⟨Vector.replicate height (Vector.replicate width false)⟩

/-- The cell is lit. -/
def lit (s : Screen width height) (c : Cell width height) : Bool := s.rows[c.2][c.1]

/-- Screens that agree on every cell are equal. -/
theorem ext_lit {s t : Screen width height} (h : ∀ c, s.lit c = t.lit c) : s = t := by
  cases s with
  | mk rows =>
    cases t with
    | mk rows' =>
      congr 1
      apply Vector.ext
      intro y hy
      apply Vector.ext
      intro x hx
      exact h (⟨x, hx⟩, ⟨y, hy⟩)

/-- Changes a lit cell to dark and a dark one to lit. -/
def flip (s : Screen width height) (c : Cell width height) : Screen width height :=
  ⟨s.rows.set c.2 (s.rows[c.2].set c.1 (!s.lit c))⟩

/-- A flip changes one cell. -/
theorem lit_flip (s : Screen width height) (c d : Cell width height) :
    (s.flip c).lit d = if d = c then !s.lit c else s.lit d := by
  obtain ⟨x, y⟩ := c
  obtain ⟨x', y'⟩ := d
  unfold lit flip
  by_cases hy : y' = y
  · subst hy
    by_cases hx : x' = x
    · subst hx
      simp [lit]
    · have hne : x.val ≠ x'.val := fun he => hx (Fin.ext he.symm)
      simp [hx, Vector.getElem_set_ne _ _ hne]
  · have hne : y.val ≠ y'.val := fun he => hy (Fin.ext he.symm)
    simp [hy, Vector.getElem_set_ne _ _ hne]

/-! ## Drawing -/

/-- A screen after drawing, with the collision answer. -/
structure Drawn (width height : Nat) where
  screen : Screen width height
  collided : Bool
deriving DecidableEq

/-- Flips cells one after the other; a collision is a flip of a cell that is lit at that moment. -/
def flipAll (s : Screen width height) : List (Cell width height) → Drawn width height
  | [] => ⟨s, false⟩
  | c :: cs =>
    let hit := s.lit c
    let rest := (s.flip c).flipAll cs
    ⟨rest.screen, hit || rest.collided⟩

/-- The remainder of a coordinate is a valid index. -/
theorem toNat_emod_lt {n : Nat} (hn : 0 < n) (a : Int) : (a % n).toNat < n := by
  have h0 := Int.emod_nonneg a (show (n : Int) ≠ 0 by omega)
  have h1 := Int.emod_lt_of_pos a (show (0 : Int) < n by omega)
  omega

/-- The cell under a point of the plane. -/
def wrap (hw : 0 < width) (hh : 0 < height) (p : Sprite.Point) : Cell width height :=
  (⟨(p.1 % width).toNat, toNat_emod_lt hw p.1⟩, ⟨(p.2 % height).toNat, toNat_emod_lt hh p.2⟩)

/-- The cells under the points of a sprite, in drawing order. -/
def cells (hw : 0 < width) (hh : 0 < height) (x y : Int) (rows : List Int) :
    List (Cell width height) :=
  (Sprite.points x y rows).map (wrap hw hh)

/-- Draws a sprite with its corner at a place; nothing if a cell is needed where there is none. A
row needs the height even if it is blank, a set bit needs the width too. -/
def draw? (s : Screen width height) (x y : Int) (rows : List Int) : Option (Drawn width height) :=
  if h : 0 < width ∧ 0 < height then some (s.flipAll (cells h.1 h.2 x y rows))
  else if rows = [] ∨ (0 < height ∧ Sprite.points x y rows = []) then some ⟨s, false⟩
  else none

/-! ### Pixel by pixel -/

/-- A cell is needed where there is none. -/
inductive NoCell
  | mk
deriving DecidableEq, Repr

/-- A drawing under way. -/
abbrev Plotting (width height : Nat) := Attempt NoCell (Screen width height)

/-- The index of a coordinate, wrapped around a side of the screen. -/
def wrapped (n : Nat) (a : Int) : Plotting width height (Fin n) :=
  if hn : 0 < n then pure ⟨(a % n).toNat, toNat_emod_lt hn a⟩ else throw .mk

/-- Flips a cell and tells whether it was lit. -/
def flipped (c : Cell width height) : Plotting width height Bool := do
  let s ← get
  set (s.flip c)
  return s.lit c

/-- Draws some pixels of a row, and tells whether one of them collided. -/
def drawPixels (x : Int) (row : Int) (r : Fin height) : List Nat → Plotting width height Bool
  | [] => return false
  | j :: js =>
    if Sprite.bit row j then do
      let hit ← flipped (← wrapped width (x + j), r)
      let others ← drawPixels x row r js
      return hit || others
    else drawPixels x row r js

/-- Draws rows downwards, and tells whether a pixel collided. A row needs the height even if it is
blank, a set pixel needs the width too. -/
def drawRows (x y : Int) : List Int → Plotting width height Bool
  | [] => return false
  | row :: rows => do
    let r ← wrapped height y
    let hit ← drawPixels x row r (List.range Sprite.width)
    let others ← drawRows x (y + 1) rows
    return hit || others

theorem wrapped_of_pos {n : Nat} (hn : 0 < n) (a : Int) (s : Screen width height) :
    (wrapped n a).run s = .ok ⟨(a % n).toNat, toNat_emod_lt hn a⟩ s := by
  unfold wrapped
  rw [dif_pos hn]
  rfl

theorem wrapped_of_not_pos {n : Nat} (hn : ¬ 0 < n) (a : Int) (s : Screen width height) :
    (wrapped n a).run s = .error .mk s := by
  unfold wrapped
  rw [dif_neg hn]
  rfl

theorem flipAll_append (s : Screen width height) (cs ds : List (Cell width height)) :
    s.flipAll (cs ++ ds) =
      let first := s.flipAll cs
      let rest := first.screen.flipAll ds
      ⟨rest.screen, first.collided || rest.collided⟩ := by
  induction cs generalizing s with
  | nil => rfl
  | cons c cs ih => simp only [List.cons_append, flipAll, ih, Bool.or_assoc]

theorem flipped_run (c : Cell width height) (s : Screen width height) :
    (flipped c).run s = .ok (s.lit c) (s.flip c) := rfl

/-- Where there are cells, the pixels of a row flip the cells under them. -/
theorem drawPixels_of_cells (hw : 0 < width) (hh : 0 < height) (x y row : Int) (js : List Nat) :
    ∀ s : Screen width height,
      (drawPixels x row ⟨(y % height).toNat, toNat_emod_lt hh y⟩ js).run s =
        let drawn := s.flipAll (((js.filter (Sprite.bit row)).map fun (j : Nat) => (x + j, y)).map
          (wrap hw hh))
        .ok drawn.collided drawn.screen := by
  induction js with
  | nil => exact fun _ => rfl
  | cons j js ih =>
    intro s
    rw [drawPixels]
    by_cases hbit : Sprite.bit row j = true
    · rw [if_pos hbit, List.filter_cons_of_pos hbit,
        Attempt.run_bind_ok (wrapped_of_pos hw (x + j) s), Attempt.run_bind_ok (flipped_run _ s),
        Attempt.run_bind_ok (ih _)]
      rfl
    · rw [if_neg hbit, List.filter_cons_of_neg hbit]
      exact ih s

theorem drawRows_of_cells (hw : 0 < width) (hh : 0 < height) (x : Int) (rows : List Int) :
    ∀ (y : Int) (s : Screen width height),
      (drawRows x y rows).run s =
        let drawn := s.flipAll (cells hw hh x y rows)
        .ok drawn.collided drawn.screen := by
  induction rows with
  | nil => exact fun _ _ => rfl
  | cons row rows ih =>
    intro y s
    rw [drawRows, Attempt.run_bind_ok (wrapped_of_pos hh y s),
      Attempt.run_bind_ok (drawPixels_of_cells hw hh x y row _ s),
      Attempt.run_bind_ok (ih (y + 1) _)]
    unfold cells
    rw [Sprite.points, List.map_append, flipAll_append]
    rfl

/-- Without columns a row fails at its first set pixel, and nothing has been flipped before. -/
theorem drawPixels_of_no_columns (hw : ¬ 0 < width) (x row : Int) (r : Fin height) (js : List Nat)
    (s : Screen width height) :
    (drawPixels x row r js).run s =
      if js.filter (Sprite.bit row) = [] then .ok false s else .error .mk s := by
  induction js with
  | nil => rfl
  | cons j js ih =>
    rw [drawPixels]
    by_cases hbit : Sprite.bit row j = true
    · rw [if_pos hbit, List.filter_cons_of_pos hbit, if_neg (List.cons_ne_nil _ _),
        Attempt.run_bind_error (wrapped_of_not_pos hw (x + j) s)]
    · rw [if_neg hbit, List.filter_cons_of_neg hbit]
      exact ih

theorem drawRows_of_no_columns (hw : ¬ 0 < width) (hh : 0 < height) (x : Int) (rows : List Int) :
    ∀ (y : Int) (s : Screen width height),
      (drawRows x y rows).run s =
        if Sprite.points x y rows = [] then .ok false s else .error .mk s := by
  induction rows with
  | nil => exact fun _ _ => rfl
  | cons row rows ih =>
    intro y s
    have hpixels := drawPixels_of_no_columns hw x row ⟨(y % height).toNat, toNat_emod_lt hh y⟩
      (List.range Sprite.width) s
    rw [drawRows, Attempt.run_bind_ok (wrapped_of_pos hh y s), Sprite.points]
    simp only [List.append_eq_nil_iff, Sprite.rowPoints, List.map_eq_nil_iff]
    by_cases hblank : (List.range Sprite.width).filter (Sprite.bit row) = []
    · rw [if_pos hblank] at hpixels
      rw [Attempt.run_bind_ok hpixels, EStateM.run_bind, ih (y + 1) s]
      by_cases hrest : Sprite.points x (y + 1) rows = []
      · rw [if_pos hrest, if_pos ⟨hblank, hrest⟩]
        rfl
      · rw [if_neg hrest, if_neg fun h => hrest h.2]
    · rw [if_neg hblank] at hpixels
      rw [Attempt.run_bind_error hpixels, if_neg fun h => hblank h.1]

/-- Without rows a drawing fails at its first row. -/
theorem drawRows_of_no_rows (hh : ¬ 0 < height) (x y : Int) (rows : List Int)
    (s : Screen width height) :
    (drawRows x y rows).run s = if rows = [] then .ok false s else .error .mk s := by
  cases rows with
  | nil => rfl
  | cons row rows =>
    rw [drawRows, Attempt.run_bind_error (wrapped_of_not_pos hh y s), if_neg (List.cons_ne_nil _ _)]

/-- A drawing as a whole. One that fails leaves the screen as it was. -/
theorem drawRows_eq (x y : Int) (rows : List Int) (s : Screen width height) :
    (drawRows x y rows).run s =
      match s.draw? x y rows with
      | some drawn => .ok drawn.collided drawn.screen
      | none => .error .mk s := by
  unfold draw?
  by_cases hh : 0 < height
  · by_cases hw : 0 < width
    · rw [dif_pos ⟨hw, hh⟩]
      exact drawRows_of_cells hw hh x rows y s
    · rw [dif_neg fun h => hw h.1, drawRows_of_no_columns hw hh]
      by_cases hblank : Sprite.points x y rows = []
      · rw [if_pos hblank, if_pos (Or.inr ⟨hh, hblank⟩)]
      · have hrows : rows ≠ [] := by
          rintro rfl
          exact hblank rfl
        rw [if_neg hblank, if_neg (not_or.mpr ⟨hrows, fun h => hblank h.2⟩)]
  · rw [dif_neg fun h => hh h.2, drawRows_of_no_rows hh]
    by_cases hrows : rows = []
    · rw [if_pos hrows, if_pos (Or.inl hrows)]
    · rw [if_neg hrows, if_neg (not_or.mpr ⟨hrows, fun h => hh h.1⟩)]

/-! ## Views -/

/-- The pixel at a place, wrapping around; nothing if there is no cell. -/
def pixel? (s : Screen width height) (x y : Int) : Option Bool :=
  if h : 0 < width ∧ 0 < height then some (s.lit (wrap h.1 h.2 (x, y))) else none

/-- The number of lit cells. -/
def litCount (s : Screen width height) : Nat := (s.rows.toList.flatMap Vector.toList).count true

/-- One row as text, with the texts of a lit and a dark cell. -/
def rowText (on off : String) (r : Vector Bool width) : String :=
  String.join (r.toList.map fun b => if b then on else off)

/-- The rows as text, from top to bottom. -/
def lines (s : Screen width height) (on off : String) : List String := s.rows.toList.map (rowText on off)

/-- All rows as one text. -/
def text (s : Screen width height) (on off : String) : String := "\n".intercalate (s.lines on off)

end Screen

end Chip8
