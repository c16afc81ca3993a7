import Chip8.Proofs.LastWrites
import Chip8.Proofs.LogThreshold
import Chip8.Proofs.Patterns

/-!
# The trace of a run

At the threshold of debugging each step leaves an entry for the word that it fetched, supported or not,
and one for each byte that the font refused it (`Core.Traced`). What an entry says stands in its text, so
the addresses and the words that were executed can be read back from the log alone
(`Entry.fetched?`), also those of steps that went on to fault and of code that wrote over itself.

* `Entry.fetched?_of_traced` — one step, read back
* `Machine.traced_step` — one step, written
* `Session.debug_trace` — any number of steps
-/

namespace Chip8

/-! ## Entries -/

/-- What stands in a log. -/
structure Entry where
  level : Level
  logger : String
  message : String
deriving DecidableEq

/-- A record as it stands in a log. -/
def Record.entry (r : Record) : Entry := ⟨r.level, r.logger, r.message⟩

namespace Entry

/-- An instruction was fetched. -/
def supported (pc : Int) (w : Word) (op : Opcode) : Entry where
  level := .debug
  logger := "chip8_emulator.emu"
  message := "$" ++ Text.Hex.padded 3 pc ++ ": " ++ Text.Hex.padded 4 w.toNat ++ " " ++ op.mnemonic

/-- A word that is no instruction was fetched. -/
def unsupported (pc : Int) (w : Word) : Entry where
  level := .warning
  logger := "chip8_emulator.emu"
  message := "Unsupported opcode $" ++ Text.Hex.padded 4 w.toNat ++ " at $" ++ Text.Hex.padded 3 pc
    ++ ", skipping"

/-- The font refused a byte. -/
def refused (d : DroppedWrite) : Entry where
  level := .debug
  logger := "chip8_emulator.mem.memory"
  message := "Dropped write of $" ++ Text.Hex.padded 2 d.value.toInt ++ " to font table $"
    ++ Text.Hex.padded 3 d.address

theorem entry_unsupported (pc : Int) (w : Word) :
    (Record.unsupported pc w).entry = unsupported pc w := by
  unfold unsupported Record.entry Record.message UnsupportedWord.message
  simp only [String.append_assoc, Record.level, Record.logger]

/-! ### Reading them back -/

/-- The address and the word that stand at two places of a text. -/
def readAt (e : Entry) (pcAt wordAt : Nat) : Option (Int × Word) := do
  let pc ← Text.Hex.ofDigits? ((e.message.toList.drop pcAt).take 3)
  let word ← Text.Hex.ofDigits? ((e.message.toList.drop wordAt).take 4)
  pure (pc, UInt16.ofNat word)

/-- The address and the word that an entry says were fetched. -/
def fetched? (e : Entry) : Option (Int × Word) :=
  if e.logger = "chip8_emulator.emu" then
    match e.level with
    | .debug => e.readAt 1 6
    | .warning => e.readAt 29 20
    | _ => none
  else none

end Entry

/-! ## What a step is to leave -/

namespace Core

/-- PC is where a whole word lies. -/
def AtWord (c : Core) : Prop := 0 ≤ c.regs.pc ∧ c.regs.pc ≤ 0xFFE

instance (c : Core) : Decidable c.AtWord := inferInstanceAs (Decidable (_ ∧ _))

/-- The word that lies at PC. -/
def word (c : Core) : Word :=
  Word.ofBytes (c.memory.byte c.regs.pc.toNat) (c.memory.byte (c.regs.pc.toNat + 1))

/-- What is fetched, and where. -/
def fetched? (c : Core) : Option (Int × Word) :=
  if c.AtWord then some (c.regs.pc, c.word) else none

/-- The bytes that a word stores at the index register. -/
def storing (c : Core) (w : Word) : List Byte :=
  if w.Fits "Fx33" then (c.regs.get w.x).decimalDigits
  else if w.Fits "Fx55" then c.regs.upTo w.x
  else []

/-- Those of them that the font refuses, from the lowest address up; none if the store faults. -/
def refused (c : Core) (w : Word) : List DroppedWrite :=
  let block := Memory.Write.block c.regs.i (c.storing w)
  if block.Fits then block.refused else []

/-- The entries that a step leaves: none where no word lies, one for a word that is no instruction, one
for an instruction and one for each byte that the font refuses it. -/
inductive Traced (c : Core) : List Entry → Prop
  | outside (h : ¬ c.AtWord) : Traced c []
  | unsupported (h : c.AtWord) (hw : ∀ op : Opcode, ¬ c.word.Fits op.pattern) :
    Traced c [.unsupported c.regs.pc c.word]
  | supported {op : Opcode} (h : c.AtWord) (hw : c.word.Fits op.pattern) :
    Traced c (.supported c.regs.pc c.word op :: (c.refused c.word).map .refused)

end Core

/-! ## Reading a step back -/

namespace Entry

theorem readAt_eq {e : Entry} {pcAt wordAt : Nat} {pc : Int} {w : Word} (h : 0 ≤ pc)
    (hpc : (e.message.toList.drop pcAt).take 3 = Text.Hex.paddedChars 3 pc)
    (hword : (e.message.toList.drop wordAt).take 4 = Text.Hex.paddedChars 4 w.toNat) :
    e.readAt pcAt wordAt = some (pc, w) := by
  unfold readAt
  rw [hpc, hword, Text.Hex.ofDigits?_paddedChars 3 h,
    Text.Hex.ofDigits?_paddedChars 4 (Int.natCast_nonneg _)]
  simp [Int.toNat_of_nonneg h]

theorem length_padded_pc {pc : Int} (h : 0 ≤ pc ∧ pc ≤ 0xFFE) :
    (Text.Hex.paddedChars 3 pc).length = 3 :=
  Text.Hex.length_paddedChars 2 h.1 (show pc.toNat < 4096 by omega)

theorem length_padded_word (w : Word) : (Text.Hex.paddedChars 4 w.toNat).length = 4 :=
  Text.Hex.length_paddedChars 3 (Int.natCast_nonneg _) w.toNat_lt

theorem fetched?_supported {pc : Int} (h : 0 ≤ pc ∧ pc ≤ 0xFFE) (w : Word) (op : Opcode) :
    (supported pc w op).fetched? = some (pc, w) := by
  have hpc := length_padded_pc h
  have hword := length_padded_word w
  refine readAt_eq h.1 ?_ ?_
  · simp [supported, Text.Hex.padded, hpc]
  · simp [supported, Text.Hex.padded, List.drop_append, List.take_append, hpc, hword]

theorem fetched?_unsupported {pc : Int} (h : 0 ≤ pc ∧ pc ≤ 0xFFE) (w : Word) :
    (unsupported pc w).fetched? = some (pc, w) := by
  have hpc := length_padded_pc h
  have hword := length_padded_word w
  refine readAt_eq h.1 ?_ ?_
  · simp [unsupported, Text.Hex.padded, List.drop_append, List.take_append, hpc, hword]
  · simp [unsupported, Text.Hex.padded, hword]

theorem fetched?_refused (d : DroppedWrite) : (refused d).fetched? = none :=
  if_neg (by simp [refused])

/-- The entries of a step tell what was fetched, and where. -/
theorem fetched?_of_traced {c : Core} {entries : List Entry} (h : c.Traced entries) :
    entries.filterMap fetched? = c.fetched?.toList := by
  unfold Core.fetched?
  cases h with
  | outside h => simp [h]
  | unsupported h _ => simp [h, fetched?_unsupported h]
  | supported h _ =>
    simp [h, fetched?_supported h, fetched?_refused, List.filterMap_map]

end Entry

/-! ## Writing a step -/

theorem Memory.Write.refused_nil (address : Int) : (block address []).refused = [] := by
  simp [refused, at?, bytes]

namespace Opcode

variable {op : Opcode} {w : Word} {c : Core}

theorem droppedBy_map {α : Type} (x : Except Halt α) {f : α → Action}
    (h : ∀ a, droppedBy (.ok (f a)) = []) : droppedBy (x.map f) = [] := by
  cases x with
  | error halt => rfl
  | ok a => exact h a

theorem droppedBy_writeIndexed (c : Core) (data : List Byte) (f : Core → Core) :
    droppedBy ((c.writeIndexed data).map fun stored => .done (f stored.1) stored.2) =
      if (Memory.Write.block c.regs.i data).Fits then (Memory.Write.block c.regs.i data).refused
      else [] := by
  unfold Core.writeIndexed
  rw [Memory.writeBlock_eq]
  by_cases hfits : (Memory.Write.block c.regs.i data).Fits
  · have hin : Memory.InRange c.regs.i data.length := Memory.Write.fits_iff_inRange.mp hfits
    have hdropped := Memory.dropped_stored (m := c.memory) hfits
    rw [if_pos hfits, if_pos hin]
    exact hdropped
  · have hout : ¬ Memory.InRange c.regs.i data.length := fun hin =>
      hfits (Memory.Write.fits_iff_inRange.mpr hin)
    rw [if_neg hfits, if_neg hout]
    rfl

theorem storing_of_ofWord? (hop : ofWord? w = some op) :
    c.storing w = (op.stores? w c.regs).getD [] := by
  have hdigits : w.Fits "Fx33" ↔ op = .ldBVx := by
    rw [show "Fx33" = pattern .ldBVx from rfl, Word.fits_pattern_iff, hop, Option.some.injEq]
  have hsave : w.Fits "Fx55" ↔ op = .ldMemVx := by
    rw [show "Fx55" = pattern .ldMemVx from rfl, Word.fits_pattern_iff, hop, Option.some.injEq]
  unfold Core.storing
  simp only [hdigits, hsave]
  cases op <;> rfl

theorem droppedBy_exec (hop : ofWord? w = some op) : droppedBy (op.exec w c) = c.refused w := by
  unfold Core.refused
  rw [storing_of_ofWord? hop]
  cases op with
  | ldBVx => exact droppedBy_writeIndexed c _ Core.next
  | ldMemVx => exact droppedBy_writeIndexed c _ fun next => (next.advanceIndex (w.x + 1)).next
  | ret | call | drw | ldVxMem =>
    simp only [stores?, Option.getD_none, Memory.Write.refused_nil, ite_self]
    exact droppedBy_map _ fun _ => rfl
  | _ => simp [stores?, Memory.Write.refused_nil, exec, droppedBy]

end Opcode

namespace Machine

variable {σ : Type} [Surface σ]

/-- A step leaves its entries, also if it goes on to fault. -/
theorem traced_step (m : Machine σ) : m.core.Traced (m.step.records.map Record.entry) := by
  rcases step_cases m with ⟨f, hfetch, hstep⟩ | ⟨w, hfetch, hop, hstep⟩ | ⟨w, op, hfetch, hop, hstep⟩
  · rw [hstep]
    exact .outside (Core.fetch_eq_error_iff.mp hfetch).1
  · rw [hstep]
    obtain ⟨hin, rfl⟩ := Core.fetch_eq_ok_iff.mp hfetch
    rw [List.map_singleton, Entry.entry_unsupported]
    exact .unsupported hin (Word.not_fits_of_unsupported hop)
  · rw [hstep, records_perform, Opcode.droppedBy_exec hop]
    obtain ⟨hin, rfl⟩ := Core.fetch_eq_ok_iff.mp hfetch
    rw [List.map_cons, List.map_map]
    exact .supported hin (Opcode.fits_of_ofWord? hop)

/-! ## Many steps -/

theorem reports_eq_flatMap (m : Machine σ) (n : Nat) :
    m.reports n = (List.range n).flatMap fun j => (m.after j).step.records := by
  induction n with
  | zero => rfl
  | succ n ih => simp [reports, ih, List.range_succ]

end Machine

/-! ## The log -/

/-- What stands in a log, oldest first. -/
def Log.entries (log : Log) : List Entry := log.records.toList.map Record.entry

namespace Session

variable {σ : Type} [Surface σ] [Keyed σ]

theorem applyAll_append (ops ops' : List Operation) : ∀ s : Session σ,
    (s.applyAll (ops ++ ops')).1 = ((s.applyAll ops).1.applyAll ops').1 := by
  induction ops with
  | nil => exact fun _ => rfl
  | cons op ops ih => exact fun s => ih (s.apply op).1

theorem applyAll_steps (s : Session σ) (n : Nat) :
    (s.applyAll (List.replicate n .step)).1 = ⟨s.machine.after n, s.log.addAll (s.machine.reports n)⟩ := by
  induction n with
  | zero => rfl
  | succ n ih =>
    rw [List.replicate_succ', applyAll_append, ih, Machine.reports, Log.addAll_append]
    exact congrArg Prod.fst (apply_step _)

/-- **The debug trace is a faithful record.** At the threshold of debugging, any number of steps leave in
the log, in order, just the entries of each one, whatever memory held when it was made and whether or not
it went on to fault. All that was fetched, and where, can be read back from these entries. -/
theorem debug_trace (s : Session σ) (hdebug : s.log.threshold = Level.debug.rank) (n : Nat) :
    let left := (s.applyAll (List.replicate n .step)).1
    let before := fun j => (s.machine.after j).core
    left.machine = s.machine.after n ∧
    ∃ entries : Nat → List Entry,
      (∀ j, (before j).Traced (entries j)) ∧
      left.log.entries = s.log.entries ++ (List.range n).flatMap entries ∧
      ((List.range n).flatMap entries).filterMap Entry.fetched? =
        (List.range n).filterMap fun j => (before j).fetched? := by
  intro left before
  have hleft : left = ⟨s.machine.after n, s.log.addAll (s.machine.reports n)⟩ := applyAll_steps s n
  have hkept : (s.machine.reports n).filter (Record.passes s.log.threshold) = s.machine.reports n := by
    rw [hdebug]
    exact List.filter_eq_self.mpr fun r _ => r.passes_debug
  have hstep : ∀ j, (before j).Traced ((s.machine.after j).step.records.map Record.entry) :=
    fun j => Machine.traced_step (s.machine.after j)
  refine ⟨by rw [hleft], fun j => (s.machine.after j).step.records.map Record.entry, hstep, ?_, ?_⟩
  · rw [hleft, Log.entries, Log.toList_addAll, hkept, List.map_append, Machine.reports_eq_flatMap,
      List.map_flatMap]
    rfl
  · rw [List.filterMap_flatMap, List.filterMap_eq_flatMap_toList]
    exact congrArg (List.flatMap · _) (funext fun j => Entry.fetched?_of_traced (hstep j))

/-- A store across the end of the font, a word that is no instruction, and a return without a call. -/
def storeSkipReturn : Session Detached :=
  let m := Machine.ofImage [0xF1, 0x33, 0xFF, 0xFF, 0x00, 0xEE]
  ⟨{ m with core := { m.core with regs := { i := 0x4F } } }, { threshold := 10 }⟩

theorem storeSkipReturn_trace :
    storeSkipReturn.log.threshold = Level.debug.rank ∧
    let left := (storeSkipReturn.applyAll (List.replicate 3 .step)).1
    left.machine.core.regs.pc = 0x204 ∧
    left.log.entries.filterMap Entry.fetched? = [(0x200, 0xF133), (0x202, 0xFFFF), (0x204, 0x00EE)] ∧
    .refused ⟨0x4F, 0⟩ ∈ left.log.entries := by
  obtain ⟨hmachine, entries, htraced, hlog, hread⟩ := debug_trace storeSkipReturn rfl 3
  have hstore : ∀ es, storeSkipReturn.machine.core.Traced es → .refused ⟨0x4F, 0⟩ ∈ es := by
    rintro es (h | ⟨_, hw⟩ | _)
    · exact absurd (by decide) h
    · exact absurd (by decide +kernel) (hw .ldBVx)
    · exact List.mem_cons_of_mem _ (List.mem_map_of_mem (by decide +kernel))
  refine ⟨rfl, ?_, ?_, ?_⟩
  · rw [hmachine]
    decide +kernel
  · rw [hlog]
    refine hread.trans ?_
    decide +kernel
  · rw [hlog]
    exact List.mem_flatMap.mpr ⟨0, by decide, hstore _ (htraced 0)⟩

end Session

end Chip8
