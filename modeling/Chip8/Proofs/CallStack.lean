import Chip8.Registers

/-!
# The slots of the call stack

A push and a pop as a whole (`push?`, `pop?`) are what the registers do step by step
(`Registers.pushing_eq`, `Registers.popping_eq`). Seen slot by slot, a push writes the slot at the depth
and no other, a pop writes no slot at all: the popped address stays where it was. Both see nothing of a
stack but its live addresses (`push?_of_frames_eq`, `pop?_of_frames_eq`).
-/

namespace Chip8

namespace CallStack

/-! ## Pushing and popping -/

/-- Stores an address above the live ones; nothing if all slots are in use. -/
def push? (s : CallStack) (address : Word) : Option CallStack :=
  if h : s.depth.val < 16 then
    some ⟨s.slots.set s.depth.val address h, ⟨s.depth.val + 1, by omega⟩⟩
  else none

/-- Takes the last live address off; nothing if there is none. -/
def pop? (s : CallStack) : Option (Word × CallStack) :=
  if h : 0 < s.depth.val then
    have hd := s.depth.isLt
    some (s.slots[s.depth.val - 1], ⟨s.slots, ⟨s.depth.val - 1, by omega⟩⟩)
  else none

/-- A push checks, stores and then makes the slot live. -/
theorem push?_eq (s : CallStack) (a : Word) :
    s.push? a = if s.depth.val < 16 then some (s.store a).deeper else none := by
  unfold push?
  by_cases h : s.depth.val < 16
  · have hslots : s.slots.set s.depth.val a h = s.slots.setIfInBounds s.depth.val a := by
      apply Vector.ext
      intro k hk
      rw [Vector.getElem_set, Vector.getElem_setIfInBounds hk]
    have hdepth : (⟨s.depth.val + 1, by omega⟩ : Fin 17) = ⟨min (s.depth.val + 1) 16, by omega⟩ :=
      Fin.ext (Nat.min_eq_left h).symm
    rw [dif_pos h, if_pos h, hslots, hdepth]
    rfl
  · rw [dif_neg h, if_neg h]

/-- A pop checks, makes the slot dead and then reads it. -/
theorem pop?_eq (s : CallStack) :
    s.pop? = if 0 < s.depth.val then some (s.shallower.firstDead, s.shallower) else none := by
  have hd := s.depth.isLt
  unfold pop?
  by_cases h : 0 < s.depth.val
  · have hlast : s.shallower.firstDead = s.slots[s.depth.val - 1] := by
      show s.slots[s.depth.val - 1]?.getD 0 = _
      rw [Vector.getElem?_eq_getElem (by omega), Option.getD_some]
    rw [dif_pos h, if_pos h, hlast]
    rfl
  · rw [dif_neg h, if_neg h]

theorem push?_eq_none_iff {s : CallStack} {a : Word} : s.push? a = none ↔ s.depth.val = 16 := by
  have hd := s.depth.isLt
  unfold push?
  split
  · exact ⟨(by intro h; cases h), fun h => by omega⟩
  · exact ⟨fun _ => by omega, fun _ => rfl⟩

theorem pop?_eq_none_iff {s : CallStack} : s.pop? = none ↔ s.depth.val = 0 := by
  unfold pop?
  split
  · exact ⟨(by intro h; cases h), fun h => by omega⟩
  · exact ⟨fun _ => by omega, fun _ => rfl⟩

/-- A push appends to the live addresses. -/
theorem frames_push {s t : CallStack} {a : Word} (h : s.push? a = some t) :
    t.frames = s.frames ++ [a] := by
  unfold push? at h
  split at h
  · next hlt =>
    cases h
    unfold frames
    simp only
    rw [Vector.toList_set, List.take_add_one, List.getElem?_set_self (by simpa using hlt),
      List.take_set_of_le (Nat.le_refl _)]
    rfl
  · cases h

/-- A pop takes the last live address. -/
theorem frames_pop {s t : CallStack} {a : Word} (h : s.pop? = some (a, t)) :
    s.frames = t.frames ++ [a] := by
  have hd := s.depth.isLt
  unfold pop? at h
  split at h
  · next hpos =>
    cases h
    have hlast : s.depth.val - 1 < s.slots.toList.length := by
      rw [Vector.length_toList]
      omega
    have htake := List.take_add_one (l := s.slots.toList) (i := s.depth.val - 1)
    rw [List.getElem?_eq_getElem hlast, Nat.sub_add_cancel hpos] at htake
    unfold frames
    rw [htake]
    simp
  · cases h

/-! ## Slots -/

/-- The address in a slot, live or dead. -/
def slot (s : CallStack) (k : Nibble) : Word := s.slots.get k

theorem slot_mk (s : CallStack) (k : Nat) (hk : k < 16) : s.slot ⟨k, hk⟩ = s.slots[k] := rfl

@[simp] theorem slot_empty (k : Nibble) : empty.slot k = 0 := by
  rw [slot_mk]
  simp [empty]

/-- A push moves the depth up by one. -/
theorem depth_push {s t : CallStack} {a : Word} (h : s.push? a = some t) :
    t.depth.val = s.depth.val + 1 := by
  unfold push? at h
  split at h
  · cases h
    rfl
  · cases h

/-- A push writes the slot at the old depth. -/
theorem slot_push {s t : CallStack} {a : Word} (h : s.push? a = some t) (k : Nibble) :
    t.slot k = if k.val = s.depth.val then a else s.slot k := by
  unfold push? at h
  split at h
  · cases h
    rw [slot_mk, slot_mk]
    by_cases hk : s.depth.val = k.val
    · simp [← hk]
    · rw [if_neg (fun he => hk he.symm)]
      simp [Vector.getElem_set_ne _ _ hk]
  · cases h

/-- A pop moves the depth down by one. -/
theorem depth_pop {s t : CallStack} {a : Word} (h : s.pop? = some (a, t)) :
    t.depth.val + 1 = s.depth.val := by
  unfold pop? at h
  split at h
  · cases h
    simp only
    omega
  · cases h

/-- A pop leaves every slot. -/
theorem slot_pop {s t : CallStack} {a : Word} (h : s.pop? = some (a, t)) (k : Nibble) :
    t.slot k = s.slot k := by
  unfold pop? at h
  split at h
  · cases h
    rfl
  · cases h

/-- A pop gives the address in the slot at the new depth. -/
theorem popped_eq_slot {s t : CallStack} {a : Word} (h : s.pop? = some (a, t)) {k : Nibble}
    (hk : t.depth.val = k.val) : a = s.slot k := by
  unfold pop? at h
  split at h
  · cases h
    simp only at hk
    rw [slot_mk]
    simp [← hk]
  · cases h

/-- What is popped stood in some slot. -/
theorem exists_slot_eq_popped {s t : CallStack} {a : Word} (h : s.pop? = some (a, t)) :
    ∃ k, s.slot k = a := by
  have hdepth := depth_pop h
  have hd := s.depth.isLt
  exact ⟨⟨t.depth.val, by omega⟩, (popped_eq_slot h rfl).symm⟩

/-! ## Stacks with the same live addresses -/

theorem depth_eq_of_frames_eq {s t : CallStack} (h : s.frames = t.frames) : s.depth = t.depth := by
  have hlength := congrArg List.length h
  rw [length_frames, length_frames] at hlength
  exact Fin.ext hlength

theorem push?_of_frames_eq {s t : CallStack} (h : s.frames = t.frames) (a : Word) :
    (s.push? a = none ∧ t.push? a = none) ∨
      ∃ s' t', s.push? a = some s' ∧ t.push? a = some t' ∧ s'.frames = t'.frames := by
  have hnone : s.push? a = none ↔ t.push? a = none := by
    rw [push?_eq_none_iff, push?_eq_none_iff, depth_eq_of_frames_eq h]
  cases hs : s.push? a with
  | none => exact Or.inl ⟨rfl, hnone.mp hs⟩
  | some s' =>
    cases ht : t.push? a with
    | none =>
      rw [hnone.mpr ht] at hs
      cases hs
    | some t' => exact Or.inr ⟨s', t', rfl, rfl, by rw [frames_push hs, frames_push ht, h]⟩

theorem pop?_of_frames_eq {s t : CallStack} (h : s.frames = t.frames) :
    (s.pop? = none ∧ t.pop? = none) ∨
      ∃ a s' t', s.pop? = some (a, s') ∧ t.pop? = some (a, t') ∧ s'.frames = t'.frames := by
  have hnone : s.pop? = none ↔ t.pop? = none := by
    rw [pop?_eq_none_iff, pop?_eq_none_iff, depth_eq_of_frames_eq h]
  cases hs : s.pop? with
  | none => exact Or.inl ⟨rfl, hnone.mp hs⟩
  | some popped =>
    obtain ⟨a, s'⟩ := popped
    cases ht : t.pop? with
    | none =>
      rw [hnone.mpr ht] at hs
      cases hs
    | some popped =>
      obtain ⟨b, t'⟩ := popped
      -- the popped address is the last live one of either stack
      rw [frames_pop hs, frames_pop ht] at h
      obtain ⟨hframes, hlast⟩ := List.append_inj' h rfl
      obtain rfl : a = b := List.singleton_inj.mp hlast
      exact Or.inr ⟨a, s', t', rfl, rfl, hframes⟩

end CallStack

/-! ## Registers -/

namespace Registers

/-- A push fails with nothing changed, or is a push as a whole. -/
theorem pushing_eq (address : Int) (r : Registers) :
    (pushing address).run r =
      match r.calls.push? (Word.ofInt address) with
      | some calls => .ok () { r with calls := calls }
      | none => .error (.overflow r.pc) r := by
  rw [CallStack.push?_eq]
  by_cases h : r.calls.depth.val < 16
  · have hrun : (pushing address).run r =
        .ok () { r with calls := (r.calls.store (Word.ofInt address)).deeper } := by
      show EStateM.run (if _ then _ else _) r = _
      rw [if_neg (by omega)]
      rfl
    rw [hrun, if_pos h]
  · have hrun : (pushing address).run r = .error (.overflow r.pc) r := by
      show EStateM.run (if _ then _ else _) r = _
      rw [if_pos (by omega)]
      rfl
    rw [hrun, if_neg h]

/-- A pop fails with nothing changed, or is a pop as a whole. -/
theorem popping_eq (r : Registers) :
    popping.run r =
      match r.calls.pop? with
      | some (address, calls) => .ok address { r with calls := calls }
      | none => .error (.underflow r.pc) r := by
  rw [CallStack.pop?_eq]
  by_cases h : 0 < r.calls.depth.val
  · have hrun : popping.run r =
        .ok r.calls.shallower.firstDead { r with calls := r.calls.shallower } := by
      show EStateM.run (if _ then _ else _) r = _
      rw [if_neg (by omega)]
      rfl
    rw [hrun, if_pos h]
  · have hrun : popping.run r = .error (.underflow r.pc) r := by
      show EStateM.run (if _ then _ else _) r = _
      rw [if_pos (by omega)]
      rfl
    rw [hrun, if_neg h]

theorem push_eq (r : Registers) (address : Int) :
    r.push address =
      match r.calls.push? (Word.ofInt address) with
      | some calls => .ok { r with calls := calls }
      | none => .error (.overflow r.pc) := by
  unfold push Attempt.result
  rw [pushing_eq]
  cases r.calls.push? (Word.ofInt address) <;> rfl

theorem pop_eq (r : Registers) :
    r.pop =
      match r.calls.pop? with
      | some (address, calls) => .ok (address, { r with calls := calls })
      | none => .error (.underflow r.pc) := by
  unfold pop Attempt.result
  rw [popping_eq]
  cases r.calls.pop? <;> rfl

end Registers

end Chip8
