import Chip8.Rom
import Mathlib.Data.List.Basic

/-!
# What stands at a path

A path that can be asked for leads through directories, either to the end or to a first place that is no
directory (`FileTree.StopsAt`). In the second case there is a file there, or nothing. A file is held at
the path if no name is left over (`FileTree.Holds`); if there is nothing, the path is lacking
(`FileTree.Lacks`). Creating a directory or a file takes nothing away from a tree
(`FileTree.Extends`), so what could be read can still be read.

* `FileTree.find_eq_file_iff`, `FileTree.find_eq_notFound_iff` — what a look-up finds
* `FileTree.extends_of_create` — what creating a file leaves
-/

namespace Chip8

/-- The system can be asked for a path: it holds no null character and is not too long. -/
def Files.Path.Askable (p : Files.Path) : Prop :=
  '\x00' ∉ p.text.toList ∧ p.text.utf8ByteSize ≤ FileTree.maxPathSize

namespace FileTree

variable {t t' : FileTree} {p : Files.Path} {here before place after : List String}
  {name : String} {data : List Byte}

/-! ## Directories -/

theorem hasDirectory_iff : t.hasDirectory place ↔
    (∀ name ∈ place, name = "..") ∨ place = ["/"] ∨ (∃ d ∈ t.directories, place <+: d) ∨
      ∃ f ∈ t.files, place <+: f.1 ∧ place ≠ f.1 := by
  simp [hasDirectory, or_assoc]

theorem hasDirectory_startOf (t : FileTree) (root : String) : t.hasDirectory (startOf root) := by
  rw [hasDirectory_iff]
  unfold startOf
  split <;> simp

/-- A place above a directory is a directory. -/
theorem hasDirectory_above (hpre : here <+: place) (h : t.hasDirectory place) :
    t.hasDirectory here := by
  rw [hasDirectory_iff] at h ⊢
  rcases h with hup | rfl | ⟨d, hd, hbelow⟩ | ⟨f, hf, hbelow, hne⟩
  · exact Or.inl fun name hname => hup name (hpre.subset hname)
  · rcases List.prefix_concat_iff.mp (show here <+: [] ++ ["/"] from hpre) with heq | hnil
    · exact Or.inr (Or.inl heq)
    · simp [List.prefix_nil.mp hnil]
  · exact Or.inr (Or.inr (Or.inl ⟨d, hd, hpre.trans hbelow⟩))
  · refine Or.inr (Or.inr (Or.inr ⟨f, hf, hpre.trans hbelow, ?_⟩))
    rintro rfl
    exact hne (hbelow.eq_of_length_le hpre.length_le)

/-- What lies above the place of a name lies above the place it is seen from, or is that place. -/
theorem prefix_of_prefix_placeOf (hpre : place <+: placeOf here name)
    (hne : place ≠ placeOf here name) : place <+: here := by
  have hconcat : ∀ last : String, place <+: here ++ [last] → place ≠ here ++ [last] →
      place <+: here := fun last hpre hne => (List.prefix_concat_iff.mp hpre).resolve_left hne
  unfold placeOf at hpre hne
  split_ifs at hpre hne
  · exact hconcat name hpre hne
  · exact hpre
  · exact hconcat ".." hpre hne
  · exact hpre.trans (List.dropLast_prefix here)

/-! ## Look-ups -/

/-- Names lead on from a place through directories, and none of them is too long. -/
def Passes (t : FileTree) (here : List String) : List String → Prop
  | [] => True
  | name :: rest => name.utf8ByteSize ≤ maxNameSize ∧ t.hasDirectory (placeOf here name) ∧
      t.Passes (placeOf here name) rest

/-- A path leads through directories to a place that is none, with some names left over. -/
def StopsAt (t : FileTree) (p : Files.Path) (place after : List String) : Prop :=
  p.Askable ∧ ∃ before name, p.names = before ++ name :: after ∧
    t.Passes (startOf p.root) before ∧ name.utf8ByteSize ≤ maxNameSize ∧
    place = placeOf (before.foldl placeOf (startOf p.root)) name ∧ ¬ t.hasDirectory place

/-- There is a file at a path. -/
def Holds (t : FileTree) (p : Files.Path) (data : List Byte) : Prop :=
  ∃ place, t.StopsAt p place [] ∧ t.fileAt? place = some data

/-- There is nothing at a path: the first place on its way that is no directory is no file either. -/
def Lacks (t : FileTree) (p : Files.Path) : Prop :=
  ∃ place after, t.StopsAt p place after ∧ t.fileAt? place = none

theorem Passes.hasDirectory (h : t.Passes here before) (hhere : t.hasDirectory here) :
    t.hasDirectory (before.foldl placeOf here) := by
  induction before generalizing here with
  | nil => exact hhere
  | cons name rest ih =>
    obtain ⟨-, hdirectory, hrest⟩ := h
    exact ih hrest hdirectory

/-- A walk goes on where the names before it have led. -/
theorem walk_of_passes (rest : List String) (h : t.Passes here before) :
    t.walk here (before ++ rest) = t.walk (before.foldl placeOf here) rest := by
  induction before generalizing here with
  | nil => rfl
  | cons name names ih =>
    obtain ⟨hshort, hdirectory, hrest⟩ := h
    refine Eq.trans ?_ (ih hrest)
    rw [List.cons_append]
    conv_lhs => unfold walk
    simp [Nat.not_lt.mpr hshort, hdirectory]

/-- What a walk finds at a place that is no directory: the file that is there, if no name is left. -/
def found : Option (List Byte) → List String → Except Files.Trouble Entry
  | some data, [] => .ok (.file data)
  | some _, _ :: _ => .error .notDirectory
  | none, _ => .error .notFound

theorem walk_of_not_directory (hshort : name.utf8ByteSize ≤ maxNameSize)
    (hno : ¬ t.hasDirectory (placeOf here name)) (after : List String) :
    t.walk here (name :: after) = found (t.fileAt? (placeOf here name)) after := by
  unfold walk
  simp only [if_neg (Nat.not_lt.mpr hshort), if_neg hno]
  cases t.fileAt? (placeOf here name) <;> cases after <;> rfl

/-- Names lead all the way through directories, or to a first one that is too long or to none. -/
theorem passes_or_stops (t : FileTree) (names : List String) : ∀ here, t.Passes here names ∨
    ∃ before name after, names = before ++ name :: after ∧ t.Passes here before ∧
      (maxNameSize < name.utf8ByteSize ∨ name.utf8ByteSize ≤ maxNameSize ∧
        ¬ t.hasDirectory (placeOf (before.foldl placeOf here) name)) := by
  induction names with
  | nil => exact fun _ => Or.inl trivial
  | cons name rest ih =>
    intro here
    by_cases hlong : maxNameSize < name.utf8ByteSize
    · exact Or.inr ⟨[], name, rest, rfl, trivial, Or.inl hlong⟩
    have hshort : name.utf8ByteSize ≤ maxNameSize := Nat.not_lt.mp hlong
    by_cases hdirectory : t.hasDirectory (placeOf here name)
    · rcases ih (placeOf here name) with hpasses | ⟨before, stop, after, rfl, hpasses, hstop⟩
      · exact Or.inl ⟨hshort, hdirectory, hpasses⟩
      · exact Or.inr ⟨name :: before, stop, after, rfl, ⟨hshort, hdirectory, hpasses⟩, hstop⟩
    · exact Or.inr ⟨[], name, rest, rfl, trivial, Or.inr ⟨hshort, hdirectory⟩⟩

theorem find_of_askable (h : p.Askable) : t.find p = t.walk (startOf p.root) p.names := by
  unfold find
  rw [if_neg h.1, if_neg (Nat.not_lt.mpr h.2)]

theorem find_of_stopsAt (h : t.StopsAt p place after) : t.find p = found (t.fileAt? place) after := by
  obtain ⟨hask, before, name, hnames, hpasses, hshort, rfl, hno⟩ := h
  rw [find_of_askable hask, hnames, walk_of_passes _ hpasses, walk_of_not_directory hshort hno]

/-- A look-up finds a directory, is refused, or stops at a place that is none. -/
theorem find_cases (t : FileTree) (p : Files.Path) :
    (∃ place, t.find p = .ok (.directory place) ∧ t.hasDirectory place) ∨
    (t.find p = .error .nullCharacter ∨ t.find p = .error .nameTooLong) ∨
    ∃ place after, t.StopsAt p place after := by
  by_cases hnull : '\x00' ∈ p.text.toList
  · exact Or.inr (Or.inl (Or.inl (if_pos hnull)))
  by_cases hlong : maxPathSize < p.text.utf8ByteSize
  · refine Or.inr (Or.inl (Or.inr ?_))
    unfold find
    rw [if_neg hnull, if_pos hlong]
  have hask : p.Askable := ⟨hnull, Nat.not_lt.mp hlong⟩
  rcases t.passes_or_stops p.names (startOf p.root) with
    hpasses | ⟨before, name, after, hnames, hpasses, htoo | ⟨hshort, hno⟩⟩
  · refine Or.inl ⟨_, ?_, hpasses.hasDirectory (t.hasDirectory_startOf p.root)⟩
    have hwalk := walk_of_passes [] hpasses
    rw [List.append_nil] at hwalk
    rw [find_of_askable hask, hwalk, walk]
  · refine Or.inr (Or.inl (Or.inr ?_))
    rw [find_of_askable hask, hnames, walk_of_passes _ hpasses]
    unfold walk
    rw [if_pos htoo]
  · exact Or.inr (Or.inr ⟨_, after, hask, before, name, hnames, hpasses, hshort, rfl, hno⟩)

theorem hasDirectory_of_find (h : t.find p = .ok (.directory place)) : t.hasDirectory place := by
  rcases t.find_cases p with ⟨place', hfind, hplace⟩ | (hrefused | hrefused) | ⟨place', after, hstops⟩
  · rw [h] at hfind
    cases hfind
    exact hplace
  · simp [h] at hrefused
  · simp [h] at hrefused
  · rw [find_of_stopsAt hstops] at h
    unfold found at h
    split at h <;> cases h

/-- A look-up that finds a file, or nothing, has stopped. -/
theorem exists_stopsAt (h : (∃ data, t.find p = .ok (.file data)) ∨ t.find p = .error .notFound) :
    ∃ place after, t.StopsAt p place after := by
  rcases t.find_cases p with ⟨place, hfind, -⟩ | (hrefused | hrefused) | hstops
  · simp [hfind] at h
  · simp [hrefused] at h
  · simp [hrefused] at h
  · exact hstops

/-- A look-up finds just the files that are held. -/
theorem find_eq_file_iff : t.find p = .ok (.file data) ↔ t.Holds p data := by
  constructor
  · intro h
    obtain ⟨place, after, hstops⟩ := exists_stopsAt (Or.inl ⟨data, h⟩)
    rw [find_of_stopsAt hstops] at h
    unfold found at h
    split at h
    · next hfile =>
      cases h
      exact ⟨place, hstops, hfile⟩
    · cases h
    · cases h
  · rintro ⟨place, hstops, hfile⟩
    rw [find_of_stopsAt hstops, hfile, found]

/-- A look-up finds nothing just at the paths that are lacking. -/
theorem find_eq_notFound_iff : t.find p = .error .notFound ↔ t.Lacks p := by
  constructor
  · intro h
    obtain ⟨place, after, hstops⟩ := exists_stopsAt (Or.inr h)
    rw [find_of_stopsAt hstops] at h
    unfold found at h
    split at h
    · cases h
    · cases h
    · next hfile => exact ⟨place, _, hstops, hfile⟩
  · rintro ⟨place, after, hstops, hfile⟩
    rw [find_of_stopsAt hstops, hfile, found]

theorem read_of_holds {path : String} (h : t.Holds (.ofText path) data) : t.read path = .ok data := by
  unfold read
  simp only [find_eq_file_iff.mpr h]

theorem read_of_lacks {path : String} (h : t.Lacks (.ofText path)) :
    t.read path = .error ⟨.notFound, .ofText path⟩ := by
  unfold read
  simp only [find_eq_notFound_iff.mpr h]

/-! ## Creating -/

/-- A tree has the directories of another and shows its files. -/
structure Extends (t t' : FileTree) : Prop where
  directory : ∀ place, t.hasDirectory place → t'.hasDirectory place
  file : ∀ place data, ¬ t.hasDirectory place → t.fileAt? place = some data →
    ¬ t'.hasDirectory place ∧ t'.fileAt? place = some data

theorem Extends.refl (t : FileTree) : t.Extends t := ⟨fun _ h => h, fun _ _ h h' => ⟨h, h'⟩⟩

theorem Extends.trans {t'' : FileTree} (h : t.Extends t') (h' : t'.Extends t'') : t.Extends t'' where
  directory place hplace := h'.directory place (h.directory place hplace)
  file place data hno hfile := by
    obtain ⟨hno', hfile'⟩ := h.file place data hno hfile
    exact h'.file place data hno' hfile'

theorem Passes.of_extends (h : t.Extends t') (hpasses : t.Passes here before) :
    t'.Passes here before := by
  induction before generalizing here with
  | nil => trivial
  | cons name rest ih =>
    obtain ⟨hshort, hdirectory, hrest⟩ := hpasses
    exact ⟨hshort, h.directory _ hdirectory, ih hrest⟩

/-- What could be read can still be read. -/
theorem Holds.of_extends (h : t.Extends t') (hholds : t.Holds p data) : t'.Holds p data := by
  obtain ⟨place, ⟨hask, before, name, hnames, hpasses, hshort, hplace, hno⟩, hfile⟩ := hholds
  obtain ⟨hno', hfile'⟩ := h.file place data hno hfile
  exact ⟨place, ⟨hask, before, name, hnames, hpasses.of_extends h, hshort, hplace, hno'⟩, hfile'⟩

theorem hasDirectory_addDirectory {new : List String} :
    hasDirectory { t with directories := t.directories ++ [new] } place ↔
      t.hasDirectory place ∨ place <+: new := by
  simp [hasDirectory, or_assoc, or_comm, or_left_comm]

theorem hasDirectory_addFile {new : List String × List Byte} :
    hasDirectory { t with files := t.files ++ [new] } place ↔
      t.hasDirectory place ∨ place <+: new.1 ∧ place ≠ new.1 := by
  simp [hasDirectory, or_assoc]

/-- A directory can be added inside another where there is no file. -/
theorem extends_addDirectory (hhere : t.hasDirectory here) (hfree : t.fileAt? (placeOf here name) = none) :
    t.Extends { t with directories := t.directories ++ [placeOf here name] } where
  directory place hplace := hasDirectory_addDirectory.mpr (Or.inl hplace)
  file place data hno hfile := by
    refine ⟨fun hplace => ?_, hfile⟩
    have hpre := (hasDirectory_addDirectory.mp hplace).resolve_left hno
    by_cases heq : place = placeOf here name
    · simp [← heq, hfile] at hfree
    · exact hno (hasDirectory_above (prefix_of_prefix_placeOf hpre heq) hhere)

/-- A file can be added inside a directory. -/
theorem extends_addFile (hhere : t.hasDirectory here) (data : List Byte) :
    t.Extends { t with files := t.files ++ [(placeOf here name, data)] } where
  directory place hplace := hasDirectory_addFile.mpr (Or.inl hplace)
  file place found hno hfile := by
    constructor
    · intro hplace
      obtain ⟨hpre, hne⟩ := (hasDirectory_addFile.mp hplace).resolve_left hno
      exact hno (hasDirectory_above (prefix_of_prefix_placeOf hpre hne) hhere)
    · obtain ⟨f, hf, rfl⟩ := Option.map_eq_some_iff.mp hfile
      unfold fileAt?
      rw [List.find?_append, hf]
      rfl

theorem extends_of_walkCreating (names : List String) : ∀ {t : FileTree} {p : Files.Path}
    {here : List String} {made : FileTree × List String}, t.hasDirectory here →
    t.walkCreating p here names = .ok made → t.Extends made.1 ∧ made.1.hasDirectory made.2 := by
  induction names with
  | nil =>
    intro t p here made hhere h
    cases h
    exact ⟨.refl t, hhere⟩
  | cons name rest ih =>
    intro t p here made hhere h
    unfold walkCreating at h
    dsimp only at h
    split at h
    · cases h
    split at h
    · next hdirectory => exact ih hdirectory h
    split at h
    · cases h
    · next hfree =>
      obtain ⟨hrest, hplace⟩ := ih (hasDirectory_addDirectory.mpr (Or.inr (List.prefix_refl _))) h
      exact ⟨(extends_addDirectory hhere hfree).trans hrest, hplace⟩

theorem extends_of_createDirectory {made : FileTree × List String}
    (h : t.createDirectory p = .ok made) : t.Extends made.1 ∧ made.1.hasDirectory made.2 := by
  unfold createDirectory at h
  split at h
  · next place hfind =>
    cases h
    exact ⟨.refl t, hasDirectory_of_find hfind⟩
  · cases h
  · exact extends_of_walkCreating p.names (t.hasDirectory_startOf p.root) h
  · cases h

/-- Creating a file, with the directories on the way to it, takes nothing away. -/
theorem extends_of_create {made : FileTree × List String} (h : t.create p = .ok made) :
    t.Extends made.1 := by
  unfold create at h
  rcases hdirectory : t.createDirectory p.parent with error | ⟨t', here⟩
  · rw [hdirectory] at h
    cases h
  · rw [hdirectory] at h
    obtain ⟨hextends, hhere⟩ := extends_of_createDirectory hdirectory
    refine hextends.trans ?_
    simp only [bind, Except.bind] at h
    split at h
    · cases h
    split at h
    · cases h
      exact .refl t'
    · cases h
    · cases h
      exact extends_addFile hhere []
    · cases h

end FileTree

end Chip8
