import Chip8.FrameBuffer
import Mathlib.Algebra.BigOperators.Fin
import Mathlib.Data.Fintype.BigOperators

/-!
# The views of the screen

A screen is seen pixel by pixel, as a number of lit cells and as a text. All three are views of one grid
(`Screen.grid`), so they agree. A drawing flips cells, and all that a pixel shows is whether its flips
since the last clear are odd in number. A flip adds a lit cell or takes one away, so a drawing lights as
many cells as it has pixels just if it never flips a lit one.

* `Screen.litCount_eq_card`, `Screen.splitOn_text` — the number and the text, by pixels
* `Screen.collided_flipAll_eq_false_iff` — collisions, by numbers
* `FrameBuffer.lit_act` — what one act does to one pixel
* `FrameBuffer.views_agree` — every frame buffer, after anything that was done to it
-/

namespace Chip8

/-- The number of set bits among the low eight of each row. -/
def Sprite.setBits (rows : List Int) : Nat :=
  (rows.map fun row => (List.range 8).countP fun j => row / 2 ^ j % 2 = 1).sum

theorem Sprite.length_rowPoints (x y row : Int) :
    (rowPoints x y row).length = (List.range 8).countP fun j => row / 2 ^ j % 2 = 1 := by
  have hreverse : (List.range 8).reverse = (List.range 8).map (7 - ·) := by decide
  have hbit : bit row = (fun j => decide (row / 2 ^ j % 2 = 1)) ∘ (7 - ·) := by
    funext j
    rw [Bool.eq_iff_iff, bit_eq_true_iff]
    simp
  rw [← List.countP_reverse, hreverse, List.countP_map, ← hbit, rowPoints, List.length_map,
    List.countP_eq_length_filter]
  rfl

/-- A sprite has a point for each set bit. -/
theorem Sprite.length_points (rows : List Int) : ∀ x y : Int,
    (points x y rows).length = setBits rows := by
  induction rows with
  | nil => exact fun _ _ => rfl
  | cons row rows ih =>
    intro x y
    rw [points, List.length_append, ih, length_rowPoints]
    rfl

namespace Screen

variable {width height : Nat}

/-! ## The grid -/

/-- The cells, row by row. -/
def grid (s : Screen width height) : List (List Bool) :=
  List.ofFn fun y => List.ofFn fun x => s.lit (x, y)

theorem toList_eq_ofFn {α : Type} {n : Nat} (v : Vector α n) :
    v.toList = List.ofFn fun i : Fin n => v[i] := by
  rw [← Vector.toList_ofFn]
  exact congrArg Vector.toList Vector.ofFn_getElem.symm

theorem map_toList_rows (s : Screen width height) : s.rows.toList.map Vector.toList = s.grid := by
  rw [toList_eq_ofFn, List.map_ofFn]
  exact congrArg List.ofFn (funext fun y => toList_eq_ofFn s.rows[y])

/-- Every cell is a pixel. -/
theorem pixel?_cell (s : Screen width height) (x : Fin width) (y : Fin height) :
    s.pixel? x y = some (s.lit (x, y)) := by
  have hsize : 0 < width ∧ 0 < height := ⟨x.pos, y.pos⟩
  have hx : ((x : Int) % width).toNat = x := by
    rw [← Int.natCast_emod, Int.toNat_natCast, Nat.mod_eq_of_lt x.isLt]
  have hy : ((y : Int) % height).toNat = y := by
    rw [← Int.natCast_emod, Int.toNat_natCast, Nat.mod_eq_of_lt y.isLt]
  unfold pixel?
  rw [dif_pos hsize]
  congr 2
  exact Prod.ext (Fin.ext hx) (Fin.ext hy)

/-! ## Flips -/

/-- Flips show only in whether they are odd in number. -/
theorem lit_flipAll (cs : List (Cell width height)) (d : Cell width height) :
    ∀ s : Screen width height,
      (s.flipAll cs).screen.lit d = (s.lit d ^^ decide (cs.count d % 2 = 1)) := by
  induction cs with
  | nil => simp [flipAll]
  | cons c cs ih =>
    intro s
    show ((s.flip c).flipAll cs).screen.lit d = _
    rw [ih, lit_flip, List.count_cons]
    by_cases hd : d = c
    · subst hd
      rcases Nat.mod_two_eq_zero_or_one (cs.count d) with heven | hodd
      · simp [heven, Nat.add_mod]
      · simp [hodd, Nat.add_mod]
    · simp [hd, Ne.symm hd]

/-- The number of a sprite's points that fall on a cell. -/
def hits (x y : Int) (rows : List Int) (c : Cell width height) : Nat :=
  (Sprite.points x y rows).countP fun p : Sprite.Point => p.1 % width = c.1 ∧ p.2 % height = c.2

theorem count_cells (hw : 0 < width) (hh : 0 < height) (x y : Int) (rows : List Int)
    (c : Cell width height) : (cells hw hh x y rows).count c = hits x y rows c := by
  rw [cells, List.count_eq_countP, List.countP_map]
  refine List.countP_congr fun p _ => ?_
  have hx := Int.emod_nonneg p.1 (show (width : Int) ≠ 0 by omega)
  have hy := Int.emod_nonneg p.2 (show (height : Int) ≠ 0 by omega)
  simp [wrap, Prod.ext_iff, Fin.ext_iff]
  omega

/-! ## Counting -/

theorem count_true (bs : List Bool) : bs.count true = (bs.map Bool.toNat).sum := by
  induction bs with
  | nil => rfl
  | cons b bs ih => cases b <;> simp [ih, Nat.add_comm]

theorem litCount_eq_sum (s : Screen width height) : s.litCount = ∑ c, (s.lit c).toNat := by
  unfold litCount
  rw [List.flatMap_def, map_toList_rows, count_true, grid, Fintype.sum_prod_type_right]
  simp [List.map_ofFn, List.sum_ofFn]

/-- A flip adds a lit cell or takes one away. -/
theorem litCount_flip (s : Screen width height) (c : Cell width height) :
    (s.flip c).litCount + (s.lit c).toNat = s.litCount + (!s.lit c).toNat := by
  have hothers : ∑ d ∈ Finset.univ.erase c, ((s.flip c).lit d).toNat =
      ∑ d ∈ Finset.univ.erase c, (s.lit d).toNat := by
    refine Finset.sum_congr rfl fun d hd => ?_
    rw [lit_flip, if_neg (Finset.ne_of_mem_erase hd)]
  have hflipped : ((s.flip c).lit c).toNat = (!s.lit c).toNat := by rw [lit_flip, if_pos rfl]
  rw [litCount_eq_sum, litCount_eq_sum, ← Finset.add_sum_erase _ _ (Finset.mem_univ c), hothers,
    ← Finset.add_sum_erase Finset.univ (fun d => (s.lit d).toNat) (Finset.mem_univ c), hflipped]
  omega

theorem litCount_flipAll_le (cs : List (Cell width height)) : ∀ s : Screen width height,
    (s.flipAll cs).screen.litCount ≤ s.litCount + cs.length := by
  induction cs with
  | nil => exact fun _ => Nat.le_refl _
  | cons c cs ih =>
    intro s
    have hrest : ((s.flip c).flipAll cs).screen.litCount ≤ (s.flip c).litCount + cs.length := ih _
    have hflip := litCount_flip s c
    show ((s.flip c).flipAll cs).screen.litCount ≤ _
    rw [List.length_cons]
    cases hc : s.lit c <;> simp [hc] at hflip <;> omega

/-- Cells that are all flipped once from dark to lit are as many more lit cells. -/
theorem collided_flipAll_eq_false_iff (cs : List (Cell width height)) : ∀ s : Screen width height,
    (s.flipAll cs).collided = false ↔ (s.flipAll cs).screen.litCount = s.litCount + cs.length := by
  induction cs with
  | nil => exact fun _ => iff_of_true rfl rfl
  | cons c cs ih =>
    intro s
    have hflip := litCount_flip s c
    show (s.lit c || ((s.flip c).flipAll cs).collided) = false ↔
      ((s.flip c).flipAll cs).screen.litCount = _
    rw [List.length_cons]
    cases hc : s.lit c with
    | true =>
      -- one cell went dark, and no more than the others can have been lit
      have hrest := litCount_flipAll_le cs (s.flip c)
      simp [hc] at hflip
      simp only [Bool.true_or, Bool.true_eq_false, false_iff]
      omega
    | false =>
      simp [hc] at hflip
      rw [Bool.false_or, ih, hflip]
      omega

/-! ## The views -/

theorem litCount_eq_card (s : Screen width height) : s.litCount =
    (Finset.univ.filter fun c : Cell width height => s.pixel? c.1 c.2 = some true).card := by
  rw [litCount_eq_sum, Finset.card_filter]
  refine Finset.sum_congr rfl fun c _ => ?_
  rw [pixel?_cell]
  cases s.lit c <;> rfl

/-- A pixel is the same whole screens away. -/
theorem pixel?_add_mul (s : Screen width height) (x y a b : Int) :
    s.pixel? (x + a * width) (y + b * height) = s.pixel? x y := by
  unfold pixel? wrap
  simp only [Int.add_mul_emod_self_right]

/-- The character of a cell. -/
def mark (on : Bool) : Char := if on then '#' else '.'

theorem toList_rowText (r : Vector Bool width) : (rowText "#" "." r).toList = r.toList.map mark := by
  unfold rowText
  rw [String.toList_join, List.flatMap_map, List.map_eq_flatMap]
  congr 1
  funext on
  cases on <;> rfl

theorem map_toList_lines (s : Screen width height) :
    (s.lines "#" ".").map String.toList = s.grid.map (List.map mark) := by
  rw [← map_toList_rows, lines, List.map_map, List.map_map]
  exact List.map_congr_left fun r _ => toList_rowText r

/-- The rows of pixels as text. -/
def picture (s : Screen width height) : List String :=
  List.ofFn fun y : Fin height => String.ofList (List.ofFn fun x : Fin width =>
    if s.pixel? x y = some true then '#' else '.')

theorem lines_eq_picture (s : Screen width height) : s.lines "#" "." = s.picture := by
  apply List.map_injective_iff.mpr fun _ _ => String.toList_inj.mp
  rw [map_toList_lines]
  simp [picture, grid, List.map_ofFn, Function.comp_def, pixel?_cell, mark]

/-- The lines of the text are the rows of pixels. -/
theorem splitOn_text (hh : 0 < height) (s : Screen width height) :
    (s.text "#" ".").toList.splitOn '\n' = List.ofFn fun y : Fin height => List.ofFn fun x : Fin width =>
      if s.pixel? x y = some true then '#' else '.' := by
  have hbreak : ∀ l ∈ s.grid.map (List.map mark), '\n' ∉ l := by
    rintro l hl hmem
    obtain ⟨bs, _, rfl⟩ := List.mem_map.mp hl
    obtain ⟨on, _, hon⟩ := List.mem_map.mp hmem
    cases on <;> simp [mark] at hon
  have hrows : s.grid.map (List.map mark) ≠ [] := by
    simp [grid]
    omega
  rw [text, String.toList_intercalate, map_toList_lines]
  refine (List.splitOn_intercalate '\n' hbreak hrows).trans ?_
  simp [grid, List.map_ofFn, Function.comp_def, pixel?_cell, mark]

end Screen

/-! ## The frame buffer -/

namespace FrameBuffer

variable {width height : Nat}

/-- What is done to a frame buffer. -/
inductive Act
  | clear
  | draw (x y : Int) (rows : List Int)
  | press (key : Int)
  | release (key : Int)

/-- The frame buffer after an act; one that fails leaves it as it was. -/
def act (fb : FrameBuffer width height) : Act → FrameBuffer width height
  | .clear => fb.clear
  | .draw x y rows => ((fb.draw x y rows).map Prod.snd).toOption.getD fb
  | .press key => (fb.press key).toOption.getD fb
  | .release key => (fb.release key).toOption.getD fb

/-- A pixel after an act. A drawing flips it once for each of its points that falls there. -/
def pixelAfter (c : Fin width × Fin height) (on : Bool) : Act → Bool
  | .clear => false
  | .draw x y rows => on ^^ decide (Screen.hits x y rows c % 2 = 1)
  | .press _ => on
  | .release _ => on

/-- The views of a frame buffer show one grid of pixels. -/
structure ViewsAgree (fb : FrameBuffer width height) : Prop where
  rows : fb.screen.rows.toList.length = height
  columns : ∀ row ∈ fb.screen.rows.toList, row.toList.length = width
  litCount : fb.screen.litCount =
    (Finset.univ.filter fun c : Fin width × Fin height => fb.screen.pixel? c.1 c.2 = some true).card
  text : 0 < height → (fb.screen.text "#" ".").toList.splitOn '\n' =
    List.ofFn fun y : Fin height => List.ofFn fun x : Fin width =>
      if fb.screen.pixel? x y = some true then '#' else '.'
  wraps : 0 < width → 0 < height → ∀ x y a b : Int, ∃ on, fb.screen.pixel? x y = some on ∧
    fb.screen.pixel? (x + a * width) (y + b * height) = some on
  /-- A drawing collides unless each set bit lights a cell of its own. -/
  draw : 0 < width → 0 < height → ∀ (x y : Int) (rows : List Int), ∃ hit next,
    fb.draw x y rows = .ok (hit, next) ∧
    (hit = false ↔ next.screen.litCount = fb.screen.litCount + Sprite.setBits rows)

theorem draw_eq_ok (hw : 0 < width) (hh : 0 < height) (fb : FrameBuffer width height) (x y : Int)
    (rows : List Int) :
    let drawn := fb.screen.flipAll (Screen.cells hw hh x y rows)
    fb.draw x y rows = .ok (drawn.collided, { fb with screen := drawn.screen }) := by
  intro drawn
  have hdrawn : fb.screen.draw? x y rows = some drawn := dif_pos ⟨hw, hh⟩
  rw [draw_eq, hdrawn]

theorem exists_draw_iff (hw : 0 < width) (hh : 0 < height) (fb : FrameBuffer width height)
    (x y : Int) (rows : List Int) : ∃ hit next, fb.draw x y rows = .ok (hit, next) ∧
      (hit = false ↔ next.screen.litCount = fb.screen.litCount + Sprite.setBits rows) := by
  have hlength : (Screen.cells hw hh x y rows).length = Sprite.setBits rows := by
    rw [Screen.cells, List.length_map, Sprite.length_points]
  refine ⟨_, _, draw_eq_ok hw hh fb x y rows, ?_⟩
  rw [← hlength]
  exact Screen.collided_flipAll_eq_false_iff _ _

theorem lit_act (fb : FrameBuffer width height) (a : Act) (c : Fin width × Fin height) :
    (fb.act a).screen.lit c = pixelAfter c (fb.screen.lit c) a := by
  cases a with
  | clear => simp [act, clear, Screen.dark, Screen.lit, pixelAfter]
  | draw x y rows =>
    have hw : 0 < width := c.1.pos
    have hh : 0 < height := c.2.pos
    rw [act, draw_eq_ok hw hh]
    show (fb.screen.flipAll (Screen.cells hw hh x y rows)).screen.lit c = _
    rw [Screen.lit_flipAll, Screen.count_cells]
    rfl
  | press key =>
    show ((fb.press key).toOption.getD fb).screen.lit c = fb.screen.lit c
    unfold press
    rcases fb.keys.press key with cause | keys <;> rfl
  | release key =>
    show ((fb.release key).toOption.getD fb).screen.lit c = fb.screen.lit c
    unfold release
    rcases fb.keys.release key with cause | keys <;> rfl

theorem lit_acts (acts : List Act) (c : Fin width × Fin height) : ∀ fb : FrameBuffer width height,
    (acts.foldl act fb).screen.lit c = acts.foldl (pixelAfter c) (fb.screen.lit c) := by
  induction acts with
  | nil => exact fun _ => rfl
  | cons a acts ih =>
    intro fb
    rw [List.foldl_cons, ih, lit_act]
    rfl

theorem viewsAgree (fb : FrameBuffer width height) : fb.ViewsAgree where
  rows := Vector.length_toList
  columns := fun _ _ => Vector.length_toList
  litCount := Screen.litCount_eq_card _
  text := fun hh => Screen.splitOn_text hh _
  wraps := fun hw hh x y a b => ⟨_, dif_pos ⟨hw, hh⟩,
    (Screen.pixel?_add_mul _ x y a b).trans (dif_pos ⟨hw, hh⟩)⟩
  draw := fun hw hh => exists_draw_iff hw hh fb

/-- **The views of a frame buffer agree**, whatever its size and whatever was done to it, and they show
what was done: each pixel has gone through the acts on its own. -/
theorem views_agree (acts : List Act) :
    let fb : FrameBuffer width height := acts.foldl act {}
    fb.ViewsAgree ∧ ∀ c : Fin width × Fin height,
      fb.screen.pixel? c.1 c.2 = some (acts.foldl (pixelAfter c) false) := by
  intro fb
  refine ⟨viewsAgree fb, fun c => ?_⟩
  have hdark : ({} : FrameBuffer width height).screen.lit c = false := by simp [Screen.dark, Screen.lit]
  rw [Screen.pixel?_cell, lit_acts, hdark]

end FrameBuffer

end Chip8
