import Mathlib.Data.Int.CardIntervalMod

/-!
# Round robin

A cursor that goes round `size` slots gives turn `n` to slot `n % size`.  No slot
ever gets two turns more than another.
-/

namespace Lucky.Systems.RoundRobin

variable {size first second : Nat}

/-- The cursor after a turn at `slot`. -/
def advance (size slot : Nat) : Nat :=
  if size ≤ slot + 1 then 0 else slot + 1

theorem advance_mod (positive : 0 < size) (turn : Nat) :
    advance size (turn % size) = (turn + 1) % size := by
  have inside := Nat.mod_lt turn positive
  rw [advance, ← Nat.mod_add_mod]
  split
  next wraps =>
    have last : turn % size + 1 = size := Nat.le_antisymm inside wraps
    rw [last, Nat.mod_self]
  next stays => exact (Nat.mod_eq_of_lt (Nat.lt_of_not_le stays)).symm

/-- How many of the first `turns` turns a slot gets. -/
def share (size slot turns : Nat) : Nat :=
  Nat.count (· % size = slot) turns

theorem share_eq (inside : first < size) (turns : Nat) :
    share size first turns = turns / size + if first < turns % size then 1 else 0 := by
  have count := Nat.count_modEq_card turns (Nat.zero_lt_of_lt inside) first
  simp only [Nat.ModEq, Nat.mod_eq_of_lt inside] at count
  exact count

theorem share_le_succ (firstInside : first < size) (secondInside : second < size) (turns : Nat) :
    share size first turns ≤ share size second turns + 1 := by
  rw [share_eq firstInside, share_eq secondInside, Nat.add_assoc]
  apply Nat.add_le_add_left
  split
  · exact Nat.le_add_left 1 _
  · exact Nat.zero_le _

/-- A slot's share of a list of turns that were dealt in order. -/
theorem count_dealt {Slot : Type*} [BEq Slot] [LawfulBEq Slot] (deal : Nat → Slot) {slot : Slot}
    (dealt : ∀ turn, deal turn = slot ↔ turn % size = first) (turns : Nat) :
    ((List.range turns).map deal).count slot = share size first turns := by
  induction turns with
  | zero => rfl
  | succ turns inductionHypothesis =>
      rw [List.range_succ, List.map_append, List.count_append, inductionHypothesis, share, share,
        Nat.count_succ, List.map_singleton, List.count_singleton]
      simp only [beq_iff_eq, dealt]

end Lucky.Systems.RoundRobin
