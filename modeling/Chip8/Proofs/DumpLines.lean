import Chip8.Registers.Dump
import Mathlib.Data.List.Basic

/-!
# Lines that can be read back

The numbers of a register dump have no fixed width: a sign takes a place, and a number that outgrows its
places gets more. They can still be told apart, because each ends at a blank or with the line. So the
line of a dump, or of a trace, holds all that it was made from, whatever the numbers are.

* `Dump.line_eq`, `TraceLine.line_eq` — the lines in full
* `Dump.parse?_line`, `TraceLine.parse?_line` — reading them back
* `Dump.lines_lose_nothing` — what two lines have in common
-/

namespace Chip8

open Text

/-! ## Dumps -/

namespace Dump

theorem length_values (d : Dump) : d.values.length = 19 := by simp [values]

theorem spaced_fields : ∀ f ∈ fields.tail, f.Spaced := by
  unfold Field.Spaced
  decide

theorem byte?_toInt (b : Byte) : byte? b.toInt = some b := by
  have hb := b.toNat_lt
  have hrange : 0 ≤ b.toInt ∧ b.toInt < 256 := by
    unfold Byte.toInt
    omega
  unfold byte?
  rw [if_pos hrange, Byte.ofInt_toInt]

theorem mapM_byte?_toInt (bs : List Byte) : (bs.map Byte.toInt).mapM byte? = some bs := by
  induction bs with
  | nil => rfl
  | cons b bs ih => simp [List.mapM_cons, byte?_toInt, ih]

theorem ofValues?_values (d : Dump) : ofValues? d.values = some d := by
  have hsize : d.v.toList.toArray.size = 16 := by simp
  unfold ofValues? values
  simp only [mapM_byte?_toInt, Option.bind_eq_bind, Option.bind_some, dif_pos hsize]
  rfl

theorem parse?_line (d : Dump) : parse? d.line = some d := by
  have hlength : fields.length = d.values.length := d.length_values.symm
  unfold parse? line
  rw [String.toList_ofList, Field.read?_write spaced_fields hlength]
  exact d.ofValues?_values

theorem line_eq (d : Dump) : d.line =
    "PC=" ++ Hex.padded 3 d.pc ++ " I=" ++ Hex.padded 3 d.i ++ " SP=" ++ Hex.padded 1 d.sp ++
      String.join ((List.finRange 16).map fun z : Fin 16 =>
        " V" ++ String.singleton (Hex.digit z) ++ "=" ++ Hex.padded 2 (d.v.get z).toInt) := by
  have hfields : (List.range 16).map (fun z => (⟨[' ', 'V', Hex.digit z, '='], 2⟩ : Field)) =
      (List.finRange 16).map fun z : Fin 16 => ⟨[' ', 'V', Hex.digit z, '='], 2⟩ := by decide
  have hvalues : d.v.toList.map Byte.toInt =
      (List.finRange 16).map fun z : Fin 16 => (d.v.get z).toInt := by
    refine List.ext_getElem (by simp) fun k _ _ => ?_
    rw [List.getElem_map, List.getElem_map, List.getElem_finRange]
    rfl
  apply String.toList_inj.mp
  unfold line fields values
  rw [hfields, hvalues]
  simp [Field.write, Field.write_map, String.toList_join, Hex.padded, List.flatMap_map]

end Dump

/-! ## Trace lines -/

namespace TraceLine

theorem length_values (t : TraceLine) : t.values.length = 21 := by
  simp [values, Dump.length_values]

theorem spaced_fields : ∀ f ∈ fields.tail, f.Spaced := by
  unfold Field.Spaced
  decide

theorem parse?_line (t : TraceLine) : parse? t.line = some t := by
  have hlength : fields.length = t.values.length := t.length_values.symm
  have hdump : t.values.take 19 = t.dump.values := List.take_left' t.dump.length_values
  have htimers : t.values.drop 19 = [t.timers.delay.toInt, t.timers.sound.toInt] :=
    List.drop_left' t.dump.length_values
  unfold parse? line
  rw [String.toList_ofList, Field.read?_write spaced_fields hlength]
  simp [hdump, htimers, Dump.ofValues?_values, Dump.byte?_toInt]

/-- A trace line is the line of its dump with the timers after it. -/
theorem line_eq (t : TraceLine) : t.line =
    t.dump.line ++ " DT=" ++ Hex.padded 2 t.timers.delay.toInt ++ " ST=" ++
      Hex.padded 2 t.timers.sound.toInt := by
  have hlength : Dump.fields.length = t.dump.values.length := t.dump.length_values.symm
  apply String.toList_inj.mp
  unfold line fields values Dump.line
  rw [Field.write_append hlength]
  simp [Field.write, Hex.padded]

end TraceLine

/-- **A dump loses nothing.** Whatever integers PC, I and SP are, the line of a dump can be read back, and
so can a trace line with its timers. So two lines are equal only if they show the same. -/
theorem Dump.lines_lose_nothing :
    (∀ d : Dump, d.line =
        "PC=" ++ Hex.padded 3 d.pc ++ " I=" ++ Hex.padded 3 d.i ++ " SP=" ++ Hex.padded 1 d.sp ++
          String.join ((List.finRange 16).map fun z : Fin 16 =>
            " V" ++ String.singleton (Hex.digit z) ++ "=" ++ Hex.padded 2 (d.v.get z).toInt) ∧
      parse? d.line = some d) ∧
    (∀ d d' : Dump, d.line = d'.line ↔
      d.pc = d'.pc ∧ d.i = d'.i ∧ d.sp = d'.sp ∧ ∀ z : Fin 16, d.v.get z = d'.v.get z) ∧
    (∀ t : TraceLine, t.line =
        t.dump.line ++ " DT=" ++ Hex.padded 2 t.timers.delay.toInt ++ " ST=" ++
          Hex.padded 2 t.timers.sound.toInt ∧
      TraceLine.parse? t.line = some t) ∧
    ∀ t t' : TraceLine, t.line = t'.line ↔ t.dump = t'.dump ∧
      t.timers.delay = t'.timers.delay ∧ t.timers.sound = t'.timers.sound := by
  refine ⟨fun d => ⟨d.line_eq, d.parse?_line⟩, fun d d' => ?_,
    fun t => ⟨t.line_eq, t.parse?_line⟩, fun t t' => ?_⟩
  · constructor
    · intro h
      obtain rfl : d = d' := Option.some.inj (by rw [← d.parse?_line, h, d'.parse?_line])
      exact ⟨rfl, rfl, rfl, fun _ => rfl⟩
    · obtain ⟨pc, i, sp, v⟩ := d
      obtain ⟨pc', i', sp', v'⟩ := d'
      rintro ⟨rfl, rfl, rfl, hv⟩
      obtain rfl : v = v' := Vector.ext fun z hz => hv ⟨z, hz⟩
      rfl
  · constructor
    · intro h
      obtain rfl : t = t' := Option.some.inj (by rw [← t.parse?_line, h, t'.parse?_line])
      exact ⟨rfl, rfl, rfl⟩
    · obtain ⟨d, delay, sound⟩ := t
      obtain ⟨d', delay', sound'⟩ := t'
      rintro ⟨rfl, rfl, rfl⟩
      rfl

/-- PC is negative, I and SP have outgrown their places. -/
example : Dump.line ⟨-1, 0x12345, 16, Vector.replicate 16 0xAB⟩ =
    "PC=-01 I=12345 SP=10 V0=AB V1=AB V2=AB V3=AB V4=AB V5=AB V6=AB V7=AB" ++
      " V8=AB V9=AB VA=AB VB=AB VC=AB VD=AB VE=AB VF=AB" := by
  cbv

end Chip8
