import Lucky.Systems.Machine
import Mathlib.Order.Filter.AtTopBot.Basic
import Mathlib.Order.Filter.Finite
import Mathlib.Order.WellFounded

/-!
# Properties of runs without end

`LeadsTo` and `Stable` are about the states of an endless run.  A potential that
never grows, and later falls whenever it is positive, ends at zero.
-/

namespace Lucky.Systems

universe u

variable {State : Type u} {states : Nat → State} {first second third : State → Prop}

/-- Whenever the first property holds, the second holds then or later. -/
def LeadsTo (states : Nat → State) (first second : State → Prop) : Prop :=
  ∀ i, first (states i) → ∃ j, i ≤ j ∧ second (states j)

/-- Once the property holds, it goes on to hold. -/
def Stable (states : Nat → State) (property : State → Prop) : Prop :=
  ∀ i, property (states i) → property (states (i + 1))

theorem Stable.later (stable : Stable states first) {i j : Nat} (later : i ≤ j)
    (holds : first (states i)) : first (states j) := by
  induction j, later using Nat.le_induction with
  | base => exact holds
  | succ j _ inductionHypothesis => exact stable j inductionHypothesis

/-- What never grows, and falls again as long as it is positive, becomes zero. -/
theorem falls_to_zero {potential : Nat → Nat} {i : Nat}
    (never_grows : ∀ j, i ≤ j → potential (j + 1) ≤ potential j)
    (falls : ∀ j, i ≤ j → 0 < potential j →
      ∃ k, j ≤ k ∧ potential (k + 1) < potential k) :
    ∃ j, i ≤ j ∧ potential j = 0 := by
  -- the least value it takes is zero
  have nonempty : (Set.Ici i).Nonempty := ⟨i, Nat.le_refl i⟩
  let least := Function.argminOn potential (Set.Ici i) nonempty
  have later : i ≤ least := Function.argminOn_mem potential (Set.Ici i) nonempty
  have shrinks {j : Nat} (last : least ≤ j) : potential j ≤ potential least := by
    induction j, last using Nat.le_induction with
    | base => exact Nat.le_refl _
    | succ j last inductionHypothesis =>
        exact Nat.le_trans (never_grows j (Nat.le_trans later last)) inductionHypothesis
  refine ⟨least, later, ?_⟩
  by_contra positive
  obtain ⟨j, last, fall⟩ := falls least later (Nat.pos_of_ne_zero positive)
  have smaller : potential (j + 1) < potential least := Nat.lt_of_lt_of_le fall (shrinks last)
  have beyond : i ≤ j + 1 := Nat.le_succ_of_le (Nat.le_trans later last)
  exact absurd (Function.argminOn_le potential (Set.Ici i) beyond) (Nat.not_le_of_lt smaller)

namespace LeadsTo

theorem trans (one : LeadsTo states first second) (two : LeadsTo states second third) :
    LeadsTo states first third := by
  intro i holds
  obtain ⟨j, later, middle⟩ := one i holds
  obtain ⟨k, last, reached⟩ := two j middle
  exact ⟨k, Nat.le_trans later last, reached⟩

/-- Within a region the run does not leave, a potential that never grows and falls
again as long as it is positive becomes zero. -/
theorem potential_zero {potential : State → Nat} {region : State → Prop}
    (stays : Stable states region)
    (never_grows : ∀ i, region (states i) → potential (states (i + 1)) ≤ potential (states i))
    (falls : ∀ i, region (states i) → 0 < potential (states i) →
      ∃ j, i ≤ j ∧ potential (states (j + 1)) < potential (states j)) :
    LeadsTo states region (fun state => region state ∧ potential state = 0) := by
  intro i inside
  have within {j : Nat} (later : i ≤ j) : region (states j) := stays.later later inside
  obtain ⟨j, later, zero⟩ := falls_to_zero
    (fun j later => never_grows j (within later)) fun j later => falls j (within later)
  exact ⟨j, later, within later, zero⟩

end LeadsTo

/-- What holds from some time on for each of finitely many indices holds from some time
on for all of them. -/
theorem eventually_forall {Index : Type} [Finite Index] {property : Index → Nat → Prop}
    (each : ∀ index, ∃ i, ∀ j, i ≤ j → property index j) :
    ∃ i, ∀ j, i ≤ j → ∀ index, property index j := by
  have always : ∀ᶠ j in Filter.atTop, ∀ index, property index j :=
    Filter.eventually_all.mpr fun index => Filter.eventually_atTop.mpr (each index)
  exact Filter.eventually_atTop.mp always

end Lucky.Systems
