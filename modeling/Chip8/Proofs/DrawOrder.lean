import Chip8.Proofs.Drawing

/-!
# Several drawings

Drawings are made one after the other, and each sees what those before it left. Yet all that they leave
of a cell is whether they flip it an odd number of times in all, so their order does not show, and the
same drawings made again take themselves back. What a drawing does depends on its place only as far as
the place wraps around.

* `FrameBuffer.exists_drawAll_eq` — several drawings are one list of flips
* `Screen.cells_add_mul` — whole screens away a sprite covers the same cells
* `FrameBuffer.drawings_commute` — every list of drawings
-/

namespace Chip8

/-- A sprite to be drawn, and the place of its corner. -/
structure Drawing where
  x : Int
  y : Int
  rows : List Int
deriving DecidableEq

/-- The same sprite, whole screens away. -/
structure Drawing.Moved (width height : Nat) (d d' : Drawing) : Prop where
  x : ∃ a : Int, d'.x = d.x + a * width
  y : ∃ b : Int, d'.y = d.y + b * height
  rows : d'.rows = d.rows

namespace Screen

variable {width height : Nat}

/-! ## Flips -/

/-- Flips may be made in any order. -/
theorem screen_flipAll_perm {cs cs' : List (Cell width height)} (h : cs.Perm cs')
    (s : Screen width height) : (s.flipAll cs).screen = (s.flipAll cs').screen := by
  refine ext_lit fun c => ?_
  rw [lit_flipAll, lit_flipAll, h.count_eq c]

/-! ## Sprites -/

theorem cells_add_mul (hw : 0 < width) (hh : 0 < height) (x y a b : Int) (rows : List Int) :
    cells hw hh (x + a * width) (y + b * height) rows = cells hw hh x y rows := by
  unfold cells
  rw [Sprite.points_shift, List.map_map]
  refine List.map_congr_left fun p _ => ?_
  simp only [Function.comp_apply, wrap, Int.add_mul_emod_self_right]

/-- The cells under the sprites of several drawings, in drawing order. -/
def drawingCells (hw : 0 < width) (hh : 0 < height) (ds : List Drawing) : List (Cell width height) :=
  ds.flatMap fun d => cells hw hh d.x d.y d.rows

end Screen

namespace FrameBuffer

variable {width height : Nat}

/-- Makes drawings one after the other; their answers come in the same order. -/
def drawAll (fb : FrameBuffer width height) :
    List Drawing → Except SurfaceFault (List Bool × FrameBuffer width height)
  | [] => .ok ([], fb)
  | d :: ds => do
    let (hit, next) ← fb.draw d.x d.y d.rows
    let (hits, last) ← next.drawAll ds
    return (hit :: hits, last)

/-- Several drawings flip the cells of all of them. -/
theorem exists_drawAll_eq (hw : 0 < width) (hh : 0 < height) (ds : List Drawing) :
    ∀ fb : FrameBuffer width height, ∃ hits, hits.length = ds.length ∧ fb.drawAll ds =
      .ok (hits, { fb with screen := (fb.screen.flipAll (Screen.drawingCells hw hh ds)).screen }) := by
  induction ds with
  | nil => exact fun fb => ⟨[], rfl, rfl⟩
  | cons d ds ih =>
    intro fb
    let drawn := fb.screen.flipAll (Screen.cells hw hh d.x d.y d.rows)
    have hfirst : fb.draw d.x d.y d.rows = .ok (drawn.collided, { fb with screen := drawn.screen }) :=
      draw_eq_ok hw hh fb d.x d.y d.rows
    obtain ⟨hits, hlength, hrest⟩ := ih { fb with screen := drawn.screen }
    refine ⟨drawn.collided :: hits, congrArg (· + 1) hlength, ?_⟩
    rw [drawAll, hfirst, Screen.drawingCells, List.flatMap_cons, Screen.flipAll_append]
    show (do let (hits, last) ← drawAll { fb with screen := drawn.screen } ds
             return (drawn.collided :: hits, last)) = _
    rw [hrest]
    rfl

/-- A drawing whole screens away does the same. -/
theorem draw_of_moved (hw : 0 < width) (hh : 0 < height) {d d' : Drawing}
    (h : d.Moved width height d') (fb : FrameBuffer width height) :
    fb.draw d'.x d'.y d'.rows = fb.draw d.x d.y d.rows := by
  obtain ⟨⟨a, hx⟩, ⟨b, hy⟩, hrows⟩ := h
  rw [hx, hy, hrows, draw_eq_ok hw hh, draw_eq_ok hw hh, Screen.cells_add_mul]

theorem drawAll_of_moved (hw : 0 < width) (hh : 0 < height) {ds ds' : List Drawing}
    (h : List.Forall₂ (Drawing.Moved width height) ds ds') : ∀ fb : FrameBuffer width height,
    fb.drawAll ds' = fb.drawAll ds := by
  induction h with
  | nil => exact fun _ => rfl
  | cons hd _ ih =>
    intro fb
    rw [drawAll, drawAll, draw_of_moved hw hh hd]
    simp only [ih]

/-- **The order of drawings does not show.** On a frame buffer that has cells, whatever it shows, a list
of drawings succeeds; in any other order it leaves the same, made again it brings the first screen back,
and with sprites moved by whole screens it gives the same answers and leaves the same. -/
theorem drawings_commute (hw : 0 < width) (hh : 0 < height) (fb : FrameBuffer width height)
    (ds : List Drawing) : ∃ hits last, fb.drawAll ds = .ok (hits, last) ∧ hits.length = ds.length ∧
      (∀ ds', ds.Perm ds' → ∃ hits', fb.drawAll ds' = .ok (hits', last)) ∧
      (∃ again, last.drawAll ds = .ok (again, fb)) ∧
      ∀ ds', List.Forall₂ (Drawing.Moved width height) ds ds' → fb.drawAll ds' = .ok (hits, last) := by
  obtain ⟨hits, hlength, hdraw⟩ := exists_drawAll_eq hw hh ds fb
  refine ⟨hits, _, hdraw, hlength, fun ds' hperm => ?_, ?_, fun ds' hmoved => ?_⟩
  · obtain ⟨hits', -, hdraw'⟩ := exists_drawAll_eq hw hh ds' fb
    have hcells : (Screen.drawingCells hw hh ds).Perm (Screen.drawingCells hw hh ds') :=
      hperm.flatMap_right _
    refine ⟨hits', ?_⟩
    rw [hdraw', Screen.screen_flipAll_perm hcells]
  · obtain ⟨again, -, hredraw⟩ := exists_drawAll_eq hw hh ds
      { fb with screen := (fb.screen.flipAll (Screen.drawingCells hw hh ds)).screen }
    refine ⟨again, ?_⟩
    rw [hredraw]
    simp only [Screen.flipAll_flipAll]
  · rw [drawAll_of_moved hw hh hmoved, hdraw]

/-- A screen three cells wide, and three drawings: a row that wraps onto itself, a block that overlaps it,
and a glyph. In another order their answers differ, but not what they leave. -/
theorem drawings_commute_of_wrapped_row :
    let fb : FrameBuffer 3 2 := { screen := Screen.dark.flip (2, 1) }
    let row : Drawing := ⟨-1, 3, [-1]⟩
    let block : Drawing := ⟨1, 0, [0xC0, 0x80]⟩
    let moved : Drawing := ⟨-5, 10, [0xC0, 0x80]⟩
    let glyph : Drawing := ⟨0, 1, [0xF0, 0x90, 0x90, 0x90, 0xF0]⟩
    0 < 3 ∧ 0 < 2 ∧ [row, block, glyph].Perm [glyph, row, block] ∧ block.Moved 3 2 moved ∧
    ∃ last, fb.drawAll [row, block, glyph] = .ok ([true, false, true], last) ∧
      fb.drawAll [glyph, row, block] = .ok ([true, true, false], last) ∧
      (∃ again, last.drawAll [row, block, glyph] = .ok (again, fb)) ∧
      fb.drawAll [row, moved, glyph] = .ok ([true, false, true], last) ∧ last.screen.litCount = 4 := by
  intro fb row block moved glyph
  have hother : [row, block, glyph].Perm [glyph, row, block] := by decide
  have hmoved : block.Moved 3 2 moved := ⟨⟨-2, rfl⟩, ⟨5, rfl⟩, rfl⟩
  have hstays : ∀ d : Drawing, d.Moved 3 2 d := fun d => ⟨⟨0, by simp⟩, ⟨0, by simp⟩, rfl⟩
  obtain ⟨hits, last, hdraw, -, hperm, hagain, hfar⟩ :=
    drawings_commute (by decide) (by decide) fb [row, block, glyph]
  obtain ⟨hits', hdraw'⟩ := hperm _ hother
  have hanswers : (fb.drawAll [row, block, glyph]).map (fun left => (left.1, left.2.screen.litCount)) =
      .ok ([true, false, true], 4) := by decide +kernel
  have hanswers' : (fb.drawAll [glyph, row, block]).map Prod.fst = .ok [true, true, false] := by
    decide +kernel
  rw [hdraw] at hanswers
  rw [hdraw'] at hanswers'
  cases hanswers'
  obtain ⟨rfl, hlit⟩ := Prod.mk.inj (Except.ok.inj hanswers)
  refine ⟨by decide, by decide, hother, hmoved, last, hdraw, hdraw', hagain, ?_, hlit⟩
  exact hfar _ (.cons (hstays row) (.cons hmoved (.cons (hstays glyph) .nil)))

end FrameBuffer

end Chip8
