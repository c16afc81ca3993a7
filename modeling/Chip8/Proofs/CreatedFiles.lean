import Chip8.Proofs.Lookup
import Mathlib.Data.List.Induction

/-!
# Where files are created

A file is created at the place that its path leads to (`FileTree.placeAt`). The place is found with the
directories, along the path as it is spelled, but the file is looked for by the direct path, where a
double dot takes back a name. Both lead to the same place, and the directories made on the way add no
file, so the place is the only one where a file can be new.

* `FileTree.placeAt_directPath` — the two ways to a place
* `FileTree.isSome_fileAt?_create`, `FileTree.isSome_fileAt?_createAll` — where there are files at the end
-/

namespace Chip8

namespace FileTree

variable {t : FileTree} {p : Files.Path} {here place : List String} {made : FileTree × List String}

/-- The place that a path leads to. -/
def placeAt (p : Files.Path) : List String := p.names.foldl placeOf (startOf p.root)

theorem eq_foldl_of_walk (names : List String) : ∀ {here : List String},
    t.walk here names = .ok (.directory place) → place = names.foldl placeOf here := by
  induction names with
  | nil =>
    intro here h
    cases h
    rfl
  | cons name rest ih =>
    intro here h
    unfold walk at h
    dsimp only at h
    split at h
    · cases h
    split at h
    · exact ih h
    · split at h <;> cases h

theorem eq_placeAt_of_find (h : t.find p = .ok (.directory place)) : place = placeAt p := by
  unfold find at h
  split at h
  · cases h
  split at h
  · cases h
  · exact eq_foldl_of_walk p.names h

theorem Holds.fileAt? {data : List Byte} (h : t.Holds p data) : t.fileAt? (placeAt p) = some data := by
  obtain ⟨place, ⟨-, before, name, hnames, -, -, rfl, -⟩, hfile⟩ := h
  rw [← hfile, placeAt, hnames, List.foldl_append]
  rfl

theorem files_of_walkCreating (names : List String) : ∀ {t : FileTree} {p : Files.Path}
    {here : List String}, t.walkCreating p here names = .ok made →
      made.1.files = t.files ∧ made.2 = names.foldl placeOf here := by
  induction names with
  | nil =>
    intro t p here h
    cases h
    exact ⟨rfl, rfl⟩
  | cons name rest ih =>
    intro t p here h
    unfold walkCreating at h
    dsimp only at h
    split at h
    · cases h
    split at h
    · exact ih h
    split at h
    · cases h
    · have hrest := ih h
      exact hrest

/-- Creating directories adds no file. -/
theorem files_of_createDirectory (h : t.createDirectory p = .ok made) :
    made.1.files = t.files ∧ made.2 = placeAt p := by
  unfold createDirectory at h
  split at h
  · next place hfind =>
    cases h
    exact ⟨rfl, eq_placeAt_of_find hfind⟩
  · cases h
  · exact files_of_walkCreating p.names h
  · cases h

/-- A name is added to the place it is seen from, or takes the last name back if there is one. -/
theorem placeOf_cases (here : List String) (name : String) :
    placeOf here name = here ++ [name] ∨ (here = ["/"] ∧ placeOf here name = here) ∨
      (here ≠ [] ∧ here ≠ ["/"] ∧ placeOf here name = here.dropLast) := by
  unfold placeOf
  split_ifs with hname hroot hup
  · exact Or.inl rfl
  · exact Or.inr (Or.inl ⟨hroot, rfl⟩)
  · exact Or.inl (by rw [not_not.mp hname])
  · refine Or.inr (Or.inr ⟨?_, hroot, rfl⟩)
    rintro rfl
    exact hup rfl

/-- A place that names lead to is reached on a straight way as well. -/
theorem exists_straight_way (root : String) (names : List String) :
    ∃ way, names.foldl placeOf (startOf root) = startOf root ++ way ∧
      ∀ part, part <+: way → part.foldl placeOf (startOf root) = startOf root ++ part := by
  induction names using List.reverseRecOn with
  | nil => exact ⟨[], (List.append_nil _).symm, fun part h => by simp [List.prefix_nil.mp h]⟩
  | append_singleton names name ih =>
    obtain ⟨way, hway, hstraight⟩ := ih
    rw [List.foldl_append, hway, List.foldl_cons, List.foldl_nil]
    rcases placeOf_cases (startOf root ++ way) name with
      hadded | ⟨-, hstays⟩ | ⟨hnil, hroot, hback⟩
    · refine ⟨way ++ [name], hadded.trans (List.append_assoc ..), fun part h => ?_⟩
      rcases List.prefix_concat_iff.mp h with rfl | h
      · rw [List.foldl_append, hstraight way (List.prefix_refl _), List.foldl_cons, hadded,
          List.foldl_nil, List.append_assoc]
      · exact hstraight part h
    · exact ⟨way, hstays, hstraight⟩
    · have hne : way ≠ [] := by
        rintro rfl
        rw [List.append_nil] at hnil hroot
        by_cases hempty : root = ""
        · exact hnil (if_pos hempty)
        · exact hroot (if_neg hempty)
      refine ⟨way.dropLast, hback.trans (List.dropLast_append_of_ne_nil hne), fun part h => ?_⟩
      exact hstraight part (h.trans (List.dropLast_prefix way))

theorem placeAt_directPath (p : Files.Path) : placeAt (directPath p) = placeAt p := by
  obtain ⟨way, hway, hstraight⟩ := exists_straight_way p.root p.names
  have hnames : (directPath p).names = way := by
    unfold directPath
    simp only [hway]
    split_ifs with hroot <;> simp [startOf, hroot]
  show (directPath p).names.foldl placeOf (startOf p.root) = p.names.foldl placeOf (startOf p.root)
  rw [hnames, hstraight way (List.prefix_refl _), hway]

theorem isSome_fileAt?_iff : (t.fileAt? place).isSome ↔ place ∈ t.files.map Prod.fst := by
  simp [fileAt?]

/-- Creating a file puts one at the place of its path, and at no other place. -/
theorem isSome_fileAt?_create (h : t.create p = .ok made) (place : List String) :
    (made.1.fileAt? place).isSome ↔ (t.fileAt? place).isSome ∨ place = placeAt p := by
  unfold create at h
  rcases hdirectory : t.createDirectory p.parent with error | ⟨t', here⟩
  · rw [hdirectory] at h
    cases h
  obtain ⟨hfiles, rfl⟩ : t'.files = t.files ∧ here = placeAt p.parent :=
    files_of_createDirectory hdirectory
  rw [hdirectory] at h
  simp only [bind, Except.bind] at h
  split at h
  · cases h
  next name hlast =>
  -- the directories lead to the place of the file
  have hplace : placeOf (placeAt p.parent) name = placeAt p := by
    obtain ⟨before, hbefore⟩ := List.getLast?_eq_some_iff.mp hlast
    show placeOf (p.names.dropLast.foldl placeOf (startOf p.root)) name = _
    rw [placeAt, hbefore, List.dropLast_concat, List.foldl_append]
    rfl
  rw [isSome_fileAt?_iff, isSome_fileAt?_iff, ← hfiles]
  split at h
  · next data hfind =>
    cases h
    have hfile := (find_eq_file_iff.mp hfind).fileAt?
    rw [placeAt_directPath] at hfile
    have hthere : placeAt p ∈ t'.files.map Prod.fst := by
      rw [← isSome_fileAt?_iff, hfile, Option.isSome_some]
    exact ⟨Or.inl, fun h => h.elim id fun heq => heq ▸ hthere⟩
  · cases h
  · cases h
    rw [List.map_append, List.mem_append, hplace, List.map_singleton, List.mem_singleton]
  · cases h

/-- Creates several files, one after the other. -/
def createAll (t : FileTree) : List String → Except FileError FileTree
  | [] => .ok t
  | path :: paths =>
    match t.create (.ofText path) with
    | .ok (next, _) => next.createAll paths
    | .error error => .error error

theorem exists_create_of_createAll {last : FileTree} {path : String} {paths : List String}
    (h : t.createAll (path :: paths) = .ok last) :
    ∃ made place, t.create (.ofText path) = .ok (made, place) ∧ made.createAll paths = .ok last := by
  unfold createAll at h
  split at h
  · next made place hcreate => exact ⟨made, place, hcreate, h⟩
  · cases h

theorem isSome_fileAt?_createAll (paths : List String) : ∀ {t last : FileTree},
    t.createAll paths = .ok last → ∀ place,
      ((last.fileAt? place).isSome ↔
        (t.fileAt? place).isSome ∨ ∃ path ∈ paths, place = placeAt (.ofText path)) := by
  induction paths with
  | nil =>
    intro t last h place
    cases h
    simp
  | cons path paths ih =>
    intro t last h place
    obtain ⟨made, _, hcreate, hrest⟩ := exists_create_of_createAll h
    rw [ih hrest place, isSome_fileAt?_create hcreate place]
    simp only [List.mem_cons, exists_eq_or_imp, or_assoc]

end FileTree

end Chip8
