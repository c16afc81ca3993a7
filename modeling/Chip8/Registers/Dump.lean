import Chip8.Registers
import Chip8.Text.Fields
import Chip8.Timers

/-!
# The register dump

One line that shows the registers, as in

    PC=200 I=000 SP=0 V0=00 V1=00 ... VF=00

and, in a trace, the timers after them. `Dump` holds the numbers shown, which may be any integers;
`Dump.parse?` reads a line back.
-/

namespace Chip8

/-- The numbers of a register dump. -/
structure Dump where
  pc : Int
  i : Int
  sp : Int
  v : Vector Byte 16
deriving DecidableEq

/-- The numbers that the dump of a register file shows. -/
def Registers.dump (r : Registers) : Dump := ⟨r.pc, r.i, r.calls.depth, r.v⟩

namespace Dump

/-- The fields of a dump, in order. -/
def fields : List Text.Field :=
  ⟨"PC=".toList, 3⟩ :: ⟨" I=".toList, 3⟩ :: ⟨" SP=".toList, 1⟩
    :: (List.range 16).map fun z => ⟨[' ', 'V', Text.Hex.digit z, '='], 2⟩

/-- The values of the fields. -/
def values (d : Dump) : List Int := d.pc :: d.i :: d.sp :: d.v.toList.map Byte.toInt

/-- The line of a dump. -/
def line (d : Dump) : String := String.ofList (Text.Field.write fields d.values)

/-- The byte that an integer is, if it is one. -/
def byte? (n : Int) : Option Byte := if 0 ≤ n ∧ n < 256 then some (Byte.ofInt n) else none

/-- The dump with given field values. -/
def ofValues? : List Int → Option Dump
  | pc :: i :: sp :: vs => do
    let bytes ← vs.mapM byte?
    if h : bytes.toArray.size = 16 then some ⟨pc, i, sp, ⟨bytes.toArray, h⟩⟩ else none
  | _ => none

/-- The dump that a line shows. -/
def parse? (s : String) : Option Dump := do
  let ns ← Text.Field.read? fields s.toList
  ofValues? ns

end Dump

/-- The numbers of a trace line: a dump and the timers. -/
structure TraceLine where
  dump : Dump
  timers : Timers
deriving DecidableEq

namespace TraceLine

/-- The fields of a trace line, in order. -/
def fields : List Text.Field := Dump.fields ++ [⟨" DT=".toList, 2⟩, ⟨" ST=".toList, 2⟩]

/-- The values of the fields. -/
def values (t : TraceLine) : List Int :=
  t.dump.values ++ [t.timers.delay.toInt, t.timers.sound.toInt]

/-- The text of a trace line. -/
def line (t : TraceLine) : String := String.ofList (Text.Field.write fields t.values)

/-- The trace line with a given text. -/
def parse? (s : String) : Option TraceLine := do
  let ns ← Text.Field.read? fields s.toList
  let dump ← Dump.ofValues? (ns.take 19)
  match ns.drop 19 with
  | [delay, sound] => do
    let d ← Dump.byte? delay
    let s ← Dump.byte? sound
    some ⟨dump, ⟨d, s⟩⟩
  | _ => none

end TraceLine

end Chip8
