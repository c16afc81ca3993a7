import Chip8.Files
import Chip8.Memory

/-!
# Program images in files

Reading an image checks its size, so that a file that could not be loaded is refused at once.
-/

namespace Chip8

/-- Why an image could not be read. -/
inductive RomError
  | file (error : FileError)
  | tooLarge (error : ProgramTooLarge)
deriving DecidableEq, Repr

/-- The text of a failed reading. -/
def RomError.message : RomError → String
  | .file error => error.message
  | .tooLarge error => error.message

/-- The image that the contents of a file are, if they fit. -/
def imageOf (contents : Except FileError (List Byte)) : Except RomError (List Byte) :=
  match contents with
  | .error error => .error (.file error)
  | .ok data =>
    if data.length ≤ Memory.maxProgramSize then .ok data else .error (.tooLarge ⟨data.length⟩)

/-- The image in a file. -/
def FileTree.readRom (t : FileTree) (path : String) : Except RomError (List Byte) :=
  imageOf (t.read path)

end Chip8
