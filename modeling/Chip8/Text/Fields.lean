import Chip8.Text.Hex

/-!
# Labelled hexadecimal fields

A line of labels, each followed by a hexadecimal integer. The number goes on until the next blank or
the end of the line, so a label after the first has to begin with a blank for the line to be read
back.
-/

namespace Chip8.Text

/-- A label with the least width of the number after it. -/
structure Field where
  label : List Char
  width : Nat
deriving DecidableEq, Repr

namespace Field

/-- The line of some fields with their values; values without a field are left out. -/
def write : List Field → List Int → List Char
  | f :: fs, n :: ns => f.label ++ Hex.paddedChars f.width n ++ write fs ns
  | _, _ => []

/-- What follows a label, if the line begins with it. -/
def strip? : List Char → List Char → Option (List Char)
  | [], cs => some cs
  | l :: label, c :: cs => if l = c then strip? label cs else none
  | _ :: _, [] => none

/-- The values of some fields on a line that holds them and nothing more. -/
def read? : List Field → List Char → Option (List Int)
  | [], [] => some []
  | [], _ :: _ => none
  | f :: fs, cs => do
    let rest ← strip? f.label cs
    let n ← Hex.ofSigned? (rest.takeWhile (· ≠ ' '))
    let ns ← read? fs (rest.dropWhile (· ≠ ' '))
    some (n :: ns)

/-! ## Writing -/

theorem write_append {fs : List Field} {ns : List Int} (h : fs.length = ns.length)
    (gs : List Field) (ms : List Int) :
    write (fs ++ gs) (ns ++ ms) = write fs ns ++ write gs ms := by
  induction fs generalizing ns with
  | nil =>
    rw [List.eq_nil_of_length_eq_zero h.symm]
    rfl
  | cons f fs ih =>
    rcases ns with _ | ⟨n, ns⟩
    · cases h
    · simp only [List.cons_append, write, ih (Nat.succ.inj h), List.append_assoc]

theorem write_map {α : Type} (f : α → Field) (g : α → Int) (zs : List α) :
    write (zs.map f) (zs.map g) =
      zs.flatMap fun z => (f z).label ++ Hex.paddedChars (f z).width (g z) := by
  induction zs with
  | nil => rfl
  | cons z zs ih => simp only [List.map_cons, write, List.flatMap_cons, ih]

/-! ## Reading back -/

theorem strip?_append (label cs : List Char) : strip? label (label ++ cs) = some cs := by
  induction label with
  | nil => rfl
  | cons l label ih => exact (if_pos rfl).trans ih

/-- The label begins with a blank. -/
def Spaced (f : Field) : Prop := f.label.head? = some ' '

/-- The line of spaced fields is empty or begins with a blank. -/
theorem takeWhile_dropWhile_write {fs : List Field} (h : ∀ f ∈ fs, f.Spaced) (ns : List Int) :
    (write fs ns).takeWhile (· ≠ ' ') = [] ∧ (write fs ns).dropWhile (· ≠ ' ') = write fs ns := by
  unfold write
  split
  · next f fs n ns =>
    obtain ⟨label, hlabel⟩ := List.head?_eq_some_iff.mp (h f List.mem_cons_self)
    simp [hlabel]
  · exact ⟨rfl, rfl⟩

/-- A line reads back if each label but the first begins with a blank. -/
theorem read?_write {fs : List Field} (h : ∀ f ∈ fs.tail, f.Spaced) : ∀ {ns : List Int},
    fs.length = ns.length → read? fs (write fs ns) = some ns := by
  induction fs with
  | nil =>
    intro ns hlength
    rw [List.eq_nil_of_length_eq_zero hlength.symm]
    rfl
  | cons f fs ih =>
    rintro (_ | ⟨n, ns⟩) hlength
    · cases hlength
    have hnumber : ∀ c ∈ Hex.paddedChars f.width n, decide (c ≠ ' ') = true := fun c hc =>
      decide_eq_true fun he => Hex.blank_not_mem_paddedChars f.width n (he ▸ hc)
    obtain ⟨htake, hdrop⟩ := takeWhile_dropWhile_write h ns
    have hrest := ih (fun g hg => h g (List.mem_of_mem_tail hg)) (Nat.succ.inj hlength)
    rw [write, read?, List.append_assoc, strip?_append]
    simp only [Option.bind_eq_bind, Option.bind_some, List.takeWhile_append_of_pos hnumber,
      List.dropWhile_append_of_pos hnumber, List.tail_cons] at htake hdrop ⊢
    rw [htake, hdrop, List.append_nil, Hex.ofSigned?_paddedChars, hrest]
    rfl

end Field

end Chip8.Text
