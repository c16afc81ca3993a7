import Chip8.Proofs.Lookup
import Chip8.Proofs.Sessions

/-!
# Loading is all or nothing

An image comes to a machine when it is created, from its host as bytes, or from a file. There is one
rule for all three: an image that fits is laid down and the registers go back to power-on
(`Core.ImageLoaded`), and one that does not fit leaves everything as it was.

* `Core.load_of_fits`, `Core.load_of_too_large` — the rule
* `Session.apply_loadFile_of_holds` — a file is as good as its bytes
* `Session.load_all_or_nothing` — all of it, from any state
-/

namespace Chip8

/-- The core `next` is `c` with an image loaded. -/
structure Core.ImageLoaded (c : Core) (image : List Byte) (next : Core) : Prop where
  laid : ∀ k (hk : k < image.length), next.memory.byte (0x200 + k) = image[k]
  /-- What an earlier program left past the end of the image is among these. -/
  others : ∀ k, k < 0x200 ∨ 0x200 + image.length ≤ k → next.memory.byte k = c.memory.byte k
  regs : next.regs =
    { v := Vector.replicate 16 0, i := 0, pc := 0x200, calls := ⟨Vector.replicate 16 0, 0⟩ }
  timers : next.timers = c.timers
  steps : next.steps = c.steps
  random : next.random = c.random

namespace Core

variable {image : List Byte}

theorem load_of_fits (h : image.length ≤ 3584) (c : Core) :
    c.load image =
      .ok { c with memory := c.memory.overlay Memory.programStart image, regs := {} } := by
  have hfits : image.length ≤ Memory.maxProgramSize := h
  simp [load, Memory.loadProgram, hfits, Except.map]

theorem load_of_too_large (h : 3584 < image.length) (c : Core) :
    c.load image = .error ⟨image.length⟩ := by
  have hlarge : ¬ image.length ≤ Memory.maxProgramSize := Nat.not_le.mpr h
  simp [load, Memory.loadProgram, hlarge, Except.map]

/-- Loading an empty image only puts the registers back. -/
theorem load_nil {c : Core} (h : c.regs = {}) : c.load [] = .ok c := by
  rw [load_of_fits (by simp), ← h]
  rfl

theorem imageLoaded_of_load {c next : Core} (h : c.load image = .ok next) : c.ImageLoaded image next := by
  by_cases hfits : image.length ≤ 3584
  · rw [load_of_fits hfits] at h
    cases h
    have hbyte := fun k => Memory.byte_overlay image c.memory Memory.programStart k
      (by unfold Memory.programStart; omega)
    unfold Memory.programStart at hbyte
    exact {
      laid := fun k hk => by
        refine (hbyte (0x200 + k)).trans ?_
        rw [if_pos (by omega), Nat.add_sub_cancel_left, List.getElem?_eq_getElem hk]
        rfl
      others := fun k hk => (hbyte k).trans (if_neg (by omega))
      regs := rfl
      timers := rfl
      steps := rfl
      random := rfl }
  · rw [load_of_too_large (Nat.not_le.mp hfits)] at h
    cases h

end Core

/-! ## Images in files -/

namespace FileTree

variable {t : FileTree} {path : String} {image : List Byte}

theorem readRom_of_fits (h : t.Holds (.ofText path) image) (hfits : image.length ≤ 3584) :
    t.readRom path = .ok image := by
  unfold readRom
  rw [read_of_holds h]
  exact if_pos hfits

theorem readRom_of_too_large (h : t.Holds (.ofText path) image) (hlarge : 3584 < image.length) :
    t.readRom path = .error (.tooLarge ⟨image.length⟩) := by
  unfold readRom
  rw [read_of_holds h]
  exact if_neg (Nat.not_le.mpr hlarge)

theorem readRom_of_lacks (h : t.Lacks (.ofText path)) :
    t.readRom path = .error (.file ⟨.notFound, .ofText path⟩) := by
  unfold readRom
  rw [read_of_lacks h]
  rfl

end FileTree

/-! ## Machines and sessions -/

variable {σ : Type} {image : List Byte}

/-- A machine may as well be created empty and then loaded. An empty image is not loaded at the
creation, but a load of it would change nothing. -/
theorem Machine.create_of_fits (h : image.length ≤ 3584) (surface : σ) (random : RandomSource) :
    ∃ core records, (Core.powerOn random).load image = .ok core ∧
      create surface random image = .ok (⟨core, surface⟩, records) := by
  unfold create
  by_cases hempty : image = []
  · subst hempty
    exact ⟨_, _, Core.load_nil rfl, rfl⟩
  · rw [if_neg hempty]
    unfold load
    rw [Core.load_of_fits h]
    exact ⟨_, _, rfl, rfl⟩

namespace Session

theorem loadImage_of_fits (h : image.length ≤ 3584) (s : Session σ) :
    ∃ next, s.machine.core.load image = .ok next ∧
      s.loadImage image = (⟨⟨next, s.machine.surface⟩, s.log.add (.loaded image.length)⟩, .done) := by
  refine ⟨_, Core.load_of_fits h _, ?_⟩
  unfold loadImage Machine.load
  rw [Core.load_of_fits h]
  rfl

theorem loadImage_of_too_large (h : 3584 < image.length) (s : Session σ) :
    s.loadImage image = (s, .failed (.rom (.tooLarge ⟨image.length⟩))) := by
  unfold loadImage Machine.load
  rw [Core.load_of_too_large h]
  rfl

theorem create_nil (surface : σ) (random : RandomSource) (threshold : Int) :
    create surface random [] threshold =
      .ok ⟨⟨Core.powerOn random, surface⟩, { threshold := threshold }⟩ := rfl

theorem create_of_fits (h : image.length ≤ 3584) (surface : σ) (random : RandomSource)
    (threshold : Int) : ∃ created, create surface random image threshold = .ok created ∧
      (Core.powerOn random).load image = .ok created.machine.core ∧
      created.machine.surface = surface := by
  obtain ⟨core, records, hcore, hcreate⟩ := Machine.create_of_fits h surface random
  unfold create
  rw [hcreate]
  exact ⟨_, rfl, hcore, rfl⟩

variable [Surface σ] [Keyed σ] (s : Session σ)

/-- A file is as good as its bytes. Its size is checked once more when it is read, with the same
answer. -/
theorem apply_loadFile_of_holds {files : FileTree} {path : String}
    (h : files.Holds (.ofText path) image) : s.apply (.loadFile files path) = s.apply (.load image) := by
  unfold apply
  rcases Nat.lt_or_ge 3584 image.length with hlarge | hfits
  · simp only [FileTree.readRom_of_too_large h hlarge, loadImage_of_too_large hlarge]
  · simp only [FileTree.readRom_of_fits h hfits]

theorem apply_loadFile_of_lacks {files : FileTree} {path : String} (h : files.Lacks (.ofText path)) :
    s.apply (.loadFile files path) =
      (s, .failed (.rom (.file ⟨.notFound, .ofText path⟩))) := by
  unfold apply
  simp only [FileTree.readRom_of_lacks h]

/-- **Loading is all or nothing, whatever the state.** An image of more than 3584 bytes is refused, and
nothing changes or is logged. Any other is laid down from 200 on, with all the rest of memory, the
timers, the step count, the surface and the random source as they were, and registers as at power-on. It
makes no difference whether the image comes as bytes or in a file, or with the creation of the machine;
a file that is not there changes nothing. -/
theorem load_all_or_nothing (image : List Byte) :
    let loaded := s.apply (.load image)
    ((∃ error, loaded.2 = .failed (.rom (.tooLarge error))) ↔ 3584 < image.length) ∧
    (3584 < image.length → loaded = (s, .failed (.rom (.tooLarge ⟨image.length⟩)))) ∧
    (image.length ≤ 3584 → loaded.2 = .done ∧
      s.machine.core.ImageLoaded image loaded.1.machine.core ∧
      loaded.1.machine.surface = s.machine.surface ∧
      loaded.1.log = s.log.add (.loaded image.length)) ∧
    (∀ (files : FileTree) (path : String), files.Holds (.ofText path) image →
      s.apply (.loadFile files path) = loaded) ∧
    (∀ (files : FileTree) (path : String), files.Lacks (.ofText path) →
      s.apply (.loadFile files path) = (s, .failed (.rom (.file ⟨.notFound, .ofText path⟩)))) ∧
    ∀ (surface : σ) (random : RandomSource) (threshold : Int), image.length ≤ 3584 →
      ∃ created empty : Session σ, create surface random image threshold = .ok created ∧
        create surface random [] threshold = .ok empty ∧
        (empty.apply (.load image)).1.machine = created.machine := by
  intro loaded
  have hlarge : 3584 < image.length → loaded = (s, .failed (.rom (.tooLarge ⟨image.length⟩))) :=
    fun h => loadImage_of_too_large h s
  refine ⟨⟨?_, fun h => ⟨_, congrArg Prod.snd (hlarge h)⟩⟩, hlarge, ?_,
    fun files path h => apply_loadFile_of_holds s h,
    fun files path h => apply_loadFile_of_lacks s h, ?_⟩
  · rintro ⟨error, herror⟩
    by_contra h
    obtain ⟨next, -, hload⟩ := loadImage_of_fits (Nat.not_lt.mp h) s
    have hdone : loaded.2 = .done := congrArg Prod.snd hload
    simp [hdone] at herror
  · intro h
    obtain ⟨next, hnext, hload⟩ := loadImage_of_fits h s
    have hloaded : loaded = _ := hload
    rw [hloaded]
    exact ⟨rfl, Core.imageLoaded_of_load hnext, rfl, rfl⟩
  · intro surface random threshold h
    obtain ⟨created, hcreate, hcore, hsurface⟩ := create_of_fits h surface random threshold
    refine ⟨created, _, hcreate, create_nil surface random threshold, ?_⟩
    obtain ⟨next, hnext, hload⟩ := loadImage_of_fits h
      ⟨⟨Core.powerOn random, surface⟩, { threshold := threshold }⟩
    obtain rfl := Except.ok.inj (hnext.symm.trans hcore)
    refine (congrArg (fun left => left.1.machine) hload).trans ?_
    rw [← hsurface]

/-- A short image from a file over a longer one, a file that is not there, and an image that is one byte
too long. -/
theorem shortFile_loads :
    let s : Session Detached := ⟨Machine.ofImage [0x12, 0x00, 0x33], { threshold := 10 }⟩
    let files := FileTree.single "rom.ch8" [0x6A, 0x42]
    let left := (s.apply (.loadFile files "rom.ch8")).1
    files.Holds (.ofText "rom.ch8") [0x6A, 0x42] ∧ files.Lacks (.ofText "no.ch8") ∧
    left.machine.core.memory.byte 0x201 = 0x42 ∧ left.machine.core.memory.byte 0x202 = 0x33 ∧
    left.log.records = #[.loaded 2] ∧
    s.apply (.loadFile files "no.ch8") =
      (s, .failed (.rom (.file ⟨.notFound, .ofText "no.ch8"⟩))) ∧
    s.apply (.load (List.replicate 3585 0)) = (s, .failed (.rom (.tooLarge ⟨3585⟩))) := by
  intro s files left
  have hholds : files.Holds (.ofText "rom.ch8") [0x6A, 0x42] :=
    FileTree.find_eq_file_iff.mp (by decide +kernel)
  have hlacks : files.Lacks (.ofText "no.ch8") :=
    FileTree.find_eq_notFound_iff.mp (by decide +kernel)
  obtain ⟨-, -, hfits, hfile, hmissing, -⟩ := s.load_all_or_nothing [0x6A, 0x42]
  obtain ⟨-, hlarge, -⟩ := s.load_all_or_nothing (List.replicate 3585 0)
  obtain ⟨-, hloaded, -, hlog⟩ := hfits (by decide)
  have hleft : left = (s.apply (.load [0x6A, 0x42])).1 := congrArg Prod.fst (hfile _ _ hholds)
  refine ⟨hholds, hlacks, ?_, ?_, ?_, hmissing _ _ hlacks, ?_⟩
  · rw [hleft]
    exact hloaded.laid 1 (by decide)
  · rw [hleft, hloaded.others 0x202 (by decide)]
    decide +kernel
  · rw [hleft, hlog]
    rfl
  · have hlength : (List.replicate 3585 (0 : Byte)).length = 3585 := List.length_replicate
    have hlong : 3584 < (List.replicate 3585 (0 : Byte)).length := by
      rw [hlength]
      decide
    rw [hlarge hlong, hlength]

end Session

end Chip8
