import Mathlib.Data.List.Induction
import Mathlib.Tactic.Common

/-!
# Computations that may fail

Inversion of `bind`, and the induction rule of a fold of fallible steps.
-/

namespace Lucky.Systems

universe u v

variable {Failure : Type u} {First Second : Type v}

theorem bind_eq_ok {computation : Except Failure First}
    {next : First → Except Failure Second} {result : Second} :
    computation >>= next = .ok result ↔
      ∃ value, computation = .ok value ∧ next value = .ok result := by
  cases computation with
  | error failure => simp [bind, Except.bind]
  | ok value => simp [bind, Except.bind]

theorem mapError_eq_ok {Other : Type u} {computation : Except Failure First}
    {change : Failure → Other} {result : First} :
    computation.mapError change = .ok result ↔ computation = .ok result := by
  cases computation <;> simp [Except.mapError]

theorem toOption_eq_some {computation : Except Failure First} {value : First} :
    computation.toOption = some value ↔ computation = .ok value := by
  cases computation <;> simp [Except.toOption]

/-- A reflexive and transitive relation kept by every step relates the two ends
of a fold that returns. -/
theorem foldlM_ok_related {State Item : Type v} {step : State → Item → Except Failure State}
    {related : State → State → Prop}
    (reflexive : ∀ state, related state state)
    (transitive : ∀ first second third, related first second → related second third →
      related first third)
    (kept : ∀ state item next, step state item = .ok next → related state next)
    {start final : State} {items : List Item}
    (folded : items.foldlM step start = .ok final) : related start final := by
  induction items generalizing start with
  | nil =>
      simp only [List.foldlM_nil, pure, Except.pure, Except.ok.injEq] at folded
      exact folded ▸ reflexive start
  | cons item rest inductionHypothesis =>
      rw [List.foldlM_cons] at folded
      rcases bind_eq_ok.mp folded with ⟨next, stepped, restFolded⟩
      exact transitive start next final (kept start item next stepped)
        (inductionHypothesis restFolded)

/-- A loop over the positions of a list that finds the item at each position, whatever
it has done before, is the fold over the items. -/
theorem foldlM_range_eq_ok {State Item : Type v} {step : State → Nat → Except Failure State}
    {advance : State → Item → State} (finds : State → Prop) {items : List Item}
    (reads : ∀ state position item, finds state → items[position]? = some item →
      step state position = .ok (advance state item) ∧ finds (advance state item))
    {start : State} (initially : finds start) :
    (List.range items.length).foldlM step start = .ok (items.foldl advance start) ∧
      finds (items.foldl advance start) := by
  induction items using List.reverseRec with
  | nil => exact ⟨rfl, initially⟩
  | append_singleton items last inductionHypothesis =>
      have earlier := inductionHypothesis fun state position item found place =>
        reads state position item found (by
          have inside := (List.getElem?_eq_some_iff.mp place).1
          rw [List.getElem?_append_left inside, place])
      obtain ⟨stepped, found⟩ := reads _ items.length last earlier.2 (by simp)
      rw [List.length_append, List.length_singleton, List.range_succ, List.foldlM_append,
        earlier.1, List.foldl_append]
      refine ⟨?_, found⟩
      simp only [bind, Except.bind, List.foldlM_cons, stepped, List.foldlM_nil]
      rfl

end Lucky.Systems
