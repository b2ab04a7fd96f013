import Mathlib.Tactic.Common

/-!
# Windows of a list and overwriting

`window cells first last` is the half-open range of cells `[first, last)`, and
`splice cells position block` overwrites cells from `position` on with a block.
The lemmas say how windows look after an overwrite and after growing a list.
-/

namespace Lucky.Systems

universe u

variable {Cell : Type u}

/-- The cells at positions `first ≤ i < last`. -/
def window (cells : List Cell) (first last : Nat) : List Cell :=
  (cells.take last).drop first

/-- Overwrite the cells from `position` on with `block`. -/
def splice (cells : List Cell) (position : Nat) (block : List Cell) : List Cell :=
  cells.take position ++ block ++ cells.drop (position + block.length)

@[simp]
theorem window_self (cells : List Cell) (position : Nat) :
    window cells position position = [] := by
  simp [window]

theorem length_window {cells : List Cell} {first last : Nat}
    (inside : last ≤ cells.length) :
    (window cells first last).length = last - first := by
  simp [window, Nat.min_eq_left inside]

theorem getElem?_window {cells : List Cell} {first last offset : Nat}
    (before : first + offset < last) :
    (window cells first last)[offset]? = cells[first + offset]? := by
  rw [window, List.getElem?_drop, List.getElem?_take_of_lt before]

theorem window_drop (cells : List Cell) (first last count : Nat) :
    window cells (first + count) last = (window cells first last).drop count := by
  simp [window, List.drop_drop]

theorem window_take {cells : List Cell} {first last count : Nat}
    (inside : first + count ≤ last) :
    window cells first (first + count) = (window cells first last).take count := by
  unfold window
  rw [List.take_drop, List.take_take, Nat.min_eq_left inside]

theorem window_append {cells : List Cell} {first last : Nat}
    (inside : last ≤ cells.length) (extra : List Cell) :
    window (cells ++ extra) first last = window cells first last := by
  simp [window, List.take_append_of_le_length inside]

theorem window_append_window {cells : List Cell} {first middle last : Nat}
    (ordered : first ≤ middle) (inside : middle ≤ last) :
    window cells first middle ++ window cells middle last = window cells first last := by
  have whole : (window cells first last).take (middle - first) =
      window cells first middle := by
    have split : window cells first (first + (middle - first)) =
        (window cells first last).take (middle - first) := window_take (by omega)
    rw [← split, Nat.add_sub_cancel' ordered]
  have rest : (window cells first last).drop (middle - first) =
      window cells middle last := by
    rw [← window_drop, Nat.add_sub_cancel' ordered]
  rw [← whole, ← rest, List.take_append_drop]

theorem length_splice {cells block : List Cell} {position : Nat}
    (fits : position + block.length ≤ cells.length) :
    (splice cells position block).length = cells.length := by
  simp only [splice, List.length_append, List.length_take, List.length_drop]
  omega

theorem window_splice_before {cells block : List Cell} {position first last : Nat}
    (before : last ≤ position) (fits : position ≤ cells.length) :
    window (splice cells position block) first last = window cells first last := by
  have long : last ≤ (cells.take position).length := by
    simp [Nat.min_eq_left fits, before]
  unfold window splice
  rw [List.append_assoc, List.take_append_of_le_length long, List.take_take,
    Nat.min_eq_left before]

theorem window_splice_self {cells block : List Cell} {position : Nat}
    (fits : position ≤ cells.length) :
    window (splice cells position block) position (position + block.length) = block := by
  have front : (cells.take position).length = position := by
    simp [Nat.min_eq_left fits]
  have count : (cells.take position ++ block).length = position + block.length := by
    simp [front]
  unfold window splice
  rw [← count, List.take_left, List.drop_left' front]

/-- Overwriting right behind a window extends it by the block. -/
theorem window_splice_extend {cells block : List Cell} {position first : Nat}
    (ordered : first ≤ position) (fits : position + block.length ≤ cells.length) :
    window (splice cells position block) first (position + block.length) =
      window cells first position ++ block := by
  have inside : position ≤ cells.length := by omega
  rw [← window_append_window ordered (Nat.le_add_right position block.length),
    window_splice_before (Nat.le_refl position) inside, window_splice_self inside]

end Lucky.Systems
