/-!
# What was said last

A history is a list, oldest first. Some of its entries say something about the thing in question and
others do not; what holds in the end is what was said last (`latest?`). A state that each entry puts or
leaves is in the end what `latest?` says, or what it was at the start (`getD_latest?_cons`).
-/

namespace Chip8

variable {α β : Type}

/-- The last of what a history says, if it says anything. -/
def latest? (says? : α → Option β) (history : List α) : Option β := history.reverse.findSome? says?

variable {says? : α → Option β} {x : α} {xs : List α} {b : β}

theorem latest?_cons : latest? says? (x :: xs) = (latest? says? xs).or (says? x) := by
  unfold latest?
  rw [List.reverse_cons, List.findSome?_append, List.findSome?_cons, List.findSome?_nil]
  cases says? x <;> rfl

theorem getD_latest?_cons :
    (latest? says? (x :: xs)).getD b = (latest? says? xs).getD ((says? x).getD b) := by
  rw [latest?_cons]
  cases latest? says? xs <;> rfl

end Chip8
