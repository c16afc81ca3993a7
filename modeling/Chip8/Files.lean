import Chip8.Files.Path
import Chip8.Text.Quoted
import Chip8.Word

/-!
# Files

The files a run can see (`FileTree`): some files with their contents and some empty directories, all
below the current directory. The directories on the way to a file exist with it. Nothing is known of
the places outside.

Looking up a path walks its names from the current directory, or from the root. The walk fails at the
first name that does not exist or that has a name after it and is no directory. A path that is too
long, or that holds a null character, is not walked at all.

Creating a directory creates those on the way to it as well. If something is in the way, the error
names the directory that could not be created (`FileTree.createDirectory`). A file is created by its
direct path, so that detours do not make it too long (`FileTree.create`).
-/

namespace Chip8

namespace Files

/-- What is wrong with a path. -/
inductive Trouble
  | notFound
  | alreadyExists
  | notDirectory
  | isDirectory
  | nameTooLong
  | nullCharacter
  | other (number : Nat) (text : String)
deriving DecidableEq, Repr

/-- The system's number of a trouble. A null character never reaches the system. -/
def Trouble.number? : Trouble → Option Nat
  | .notFound => some 2
  | .alreadyExists => some 17
  | .notDirectory => some 20
  | .isDirectory => some 21
  | .nameTooLong => some 36
  | .nullCharacter => none
  | .other number _ => some number

/-- The text of a trouble. -/
def Trouble.text : Trouble → String
  | .notFound => "No such file or directory"
  | .alreadyExists => "File exists"
  | .notDirectory => "Not a directory"
  | .isDirectory => "Is a directory"
  | .nameTooLong => "File name too long"
  | .nullCharacter => "embedded null byte"
  | .other _ text => text

end Files

/-- A file operation that failed, with the path it was asked for. -/
structure FileError where
  trouble : Files.Trouble
  path : Files.Path
deriving DecidableEq, Repr

/-- The text of a failed file operation. It names the path if the system was asked. -/
def FileError.message (e : FileError) : String :=
  match e.trouble.number? with
  | none => e.trouble.text
  | some number =>
    "[Errno " ++ toString number ++ "] " ++ e.trouble.text ++ ": " ++ Text.Quoted.quote e.path.text

/-- Files and empty directories, each named by the way to it from the current directory. -/
structure FileTree where
  files : List (List String × List Byte) := []
  directories : List (List String) := []
deriving DecidableEq

namespace FileTree

/-- The tree that holds one file. -/
def single (name : String) (data : List Byte) : FileTree := { files := [([name], data)] }

/-- What stands at the end of a walk. -/
inductive Entry
  | file (data : List Byte)
  | directory (place : List String)
deriving DecidableEq

/-- The contents of the file at a place. -/
def fileAt? (t : FileTree) (place : List String) : Option (List Byte) :=
  (t.files.find? fun f => f.1 == place).map Prod.snd

/-- There is a directory at a place: the current directory, a place above it, the root, or a place on
the way to something in the tree. -/
def hasDirectory (t : FileTree) (place : List String) : Bool :=
  place.all (· = "..") || place == ["/"] || t.directories.any (place.isPrefixOf ·)
    || t.files.any fun f => place.isPrefixOf f.1 && place != f.1

/-- The place of a name seen from a directory. -/
def placeOf (here : List String) (name : String) : List String :=
  if name ≠ ".." then here ++ [name]
  else if here = ["/"] then here
  else if here.all (· = "..") then here ++ [".."]
  else here.dropLast

/-- The place where the walk of a path starts. -/
def startOf (root : String) : List String := if root = "" then [] else ["/"]

/-- The path without detours: a double dot takes back the name before it. -/
def directPath (p : Files.Path) : Files.Path :=
  let place := p.names.foldl placeOf (startOf p.root)
  { p with names := if p.root = "" then place else place.tail }

/-- The longest name, in bytes. -/
def maxNameSize : Nat := 255

/-- Walks names from a directory. -/
def walk (t : FileTree) (here : List String) : List String → Except Files.Trouble Entry
  | [] => .ok (.directory here)
  | name :: rest =>
    let place := placeOf here name
    if maxNameSize < name.utf8ByteSize then .error .nameTooLong
    else if t.hasDirectory place then t.walk place rest
    else match t.fileAt? place, rest with
      | some data, [] => .ok (.file data)
      | some _, _ :: _ => .error .notDirectory
      | none, _ => .error .notFound

/-- The longest path, in bytes. -/
def maxPathSize : Nat := 4095

/-- Looks up a path. -/
def find (t : FileTree) (p : Files.Path) : Except Files.Trouble Entry :=
  if '\x00' ∈ p.text.toList then .error .nullCharacter
  else if maxPathSize < p.text.utf8ByteSize then .error .nameTooLong
  else t.walk (startOf p.root) p.names

/-- The contents of the file with a path. -/
def read (t : FileTree) (path : String) : Except FileError (List Byte) :=
  let p := Files.Path.ofText path
  match t.find p with
  | .ok (.file data) => .ok data
  | .ok (.directory _) => .error ⟨.isDirectory, p⟩
  | .error trouble => .error ⟨trouble, p⟩

/-! ## Creating -/

/-- Walks names on from a directory, which has a path and a place, and creates the directories that are
missing. -/
def walkCreating (t : FileTree) (p : Files.Path) (here : List String) :
    List String → Except FileError (FileTree × List String)
  | [] => .ok (t, here)
  | name :: rest =>
    let passed := p.child name
    let place := placeOf here name
    if maxNameSize < name.utf8ByteSize then .error ⟨.nameTooLong, passed⟩
    else if t.hasDirectory place then t.walkCreating passed place rest
    else match t.fileAt? place with
      | some _ => .error ⟨.alreadyExists, passed⟩
      | none =>
        ({ t with directories := t.directories ++ [place] } : FileTree).walkCreating passed place rest

/-- The place of a directory, which is created if it is missing. -/
def createDirectory (t : FileTree) (p : Files.Path) : Except FileError (FileTree × List String) :=
  match t.find p with
  | .ok (.directory place) => .ok (t, place)
  | .ok (.file _) => .error ⟨.alreadyExists, p⟩
  | .error .notFound => t.walkCreating ⟨p.root, []⟩ (startOf p.root) p.names
  | .error trouble => .error ⟨trouble, p⟩

/-- Creates an empty file, if there is none, in a directory that is created with it; gives the place of
the file. -/
def create (t : FileTree) (p : Files.Path) : Except FileError (FileTree × List String) := do
  let (t, here) ← t.createDirectory p.parent
  match p.names.getLast? with
  | none => .error ⟨.isDirectory, p⟩
  | some name =>
    let place := placeOf here name
    let direct := directPath p
    match t.find direct with
    | .ok (.file _) => .ok (t, place)
    | .ok (.directory _) => .error ⟨.isDirectory, direct⟩
    | .error .notFound => .ok ({ t with files := t.files ++ [(place, [])] }, place)
    | .error trouble => .error ⟨trouble, direct⟩

end FileTree

end Chip8
