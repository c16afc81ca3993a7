import Chip8.Word

/-!
# The keypad

Sixteen keys, each held or not. Pressing or releasing a key that does not exist is refused; asking for
one is answered with no, because a program may ask for any byte.
-/

namespace Chip8

/-- A key index outside the pad. -/
structure KeyOutside where
  key : Int
deriving DecidableEq, Repr

/-- The text of a refused key. -/
def KeyOutside.message (e : KeyOutside) : String := "Key index " ++ toString e.key ++ " outside 0-F"

/-- Which keys are held. -/
structure Keypad where
  held : Vector Bool 16
deriving DecidableEq

namespace Keypad

/-- No key is held. -/
def released : Keypad := ⟨Vector.replicate 16 false⟩

/-- The key with an integer index, if there is one. -/
def key? (k : Int) : Option Nibble :=
  if h : 0 ≤ k ∧ k < 16 then some ⟨k.toNat, by omega⟩ else none

theorem key?_eq_some_iff {k : Int} {n : Nibble} : key? k = some n ↔ k = (n.val : Int) := by
  have hn := n.isLt
  unfold key?
  constructor
  · intro h
    split at h
    · cases h
      simp only
      omega
    · cases h
  · intro h
    rw [dif_pos (by omega)]
    exact congrArg some (Fin.ext (by simp only; omega))

/-- Marks a key as held or not. -/
def mark (p : Keypad) (k : Nibble) (down : Bool) : Keypad := ⟨p.held.set k down⟩

theorem held_mark (p : Keypad) (k j : Nibble) (down : Bool) :
    (p.mark k down).held[j] = if j = k then down else p.held[j] := by
  unfold mark
  by_cases h : j = k
  · subst h
    simp
  · have hne : k.val ≠ j.val := fun he => h (Fin.ext he.symm)
    simp [h, Vector.getElem_set_ne _ _ hne]

/-- Several keys are held and no other. -/
def holding (ks : List Nibble) : Keypad := ks.foldl (fun p k => p.mark k true) released

/-- Holds a key down. -/
def press (p : Keypad) (k : Int) : Except KeyOutside Keypad :=
  match key? k with
  | some key => .ok (p.mark key true)
  | none => .error ⟨k⟩

/-- Lets a key go. -/
def release (p : Keypad) (k : Int) : Except KeyOutside Keypad :=
  match key? k with
  | some key => .ok (p.mark key false)
  | none => .error ⟨k⟩

/-- The key with an integer index is held. -/
def isHeld (p : Keypad) (k : Int) : Bool :=
  match key? k with
  | some key => p.held[key]
  | none => false

/-- Which keys are held depends on the list as a set. -/
theorem held_holding (ks : List Nibble) (j : Nibble) : (holding ks).held[j] = true ↔ j ∈ ks := by
  have general : ∀ p : Keypad,
      (ks.foldl (fun p k => p.mark k true) p).held[j] = true ↔ p.held[j] = true ∨ j ∈ ks := by
    induction ks with
    | nil => simp
    | cons k ks ih =>
      intro p
      rw [List.foldl_cons, ih, held_mark]
      by_cases h : j = k <;> simp [h]
  have hdark : released.held[j] = false := by simp [released]
  rw [holding, general, hdark]
  simp

/-- The least key that is held. -/
def lowest? (p : Keypad) : Option Nibble := (List.finRange 16).find? fun key => p.held[key]

theorem lowest?_eq_none_iff {p : Keypad} : p.lowest? = none ↔ ∀ k : Nibble, p.held[k] = false := by
  unfold lowest?
  rw [List.find?_eq_none]
  constructor
  · intro h k
    simpa using h k (List.mem_finRange k)
  · intro h k _
    simp [h k]

end Keypad

end Chip8
