import Lucky.Systems.Fallible

/-!
# Contracts of computations that may fail

`Ensures raises post computation` says that the computation returns a value with
`post`, or fails as `raises` allows.  Unlike a statement about the value alone it
rules out every other failure, so that it gives progress as well as safety.
-/

namespace Lucky.Systems

universe u v

variable {Failure : Type u} {Value Next : Type v}

def Ensures (raises : Failure → Prop) (post : Value → Prop) : Except Failure Value → Prop
  | .ok value => post value
  | .error failure => raises failure

namespace Ensures

variable {raises : Failure → Prop} {post : Value → Prop} {computation : Except Failure Value}

theorem ret {value : Value} (holds : post value) : Ensures raises post (pure value) := holds

theorem of_ok {value : Value} (returned : computation = .ok value) (holds : post value) :
    Ensures raises post computation := by
  rw [returned]
  exact holds

theorem value (ensures : Ensures raises post computation) {value : Value}
    (returned : computation = .ok value) : post value := by
  rw [returned] at ensures
  exact ensures

theorem mono {weaker : Value → Prop} (ensures : Ensures raises post computation)
    (implied : ∀ value, post value → weaker value) : Ensures raises weaker computation := by
  cases computation with
  | ok value => exact implied value ensures
  | error failure => exact ensures

theorem bind {next : Value → Except Failure Next} {result : Next → Prop}
    (first : Ensures raises post computation)
    (later : ∀ value, post value → Ensures raises result (next value)) :
    Ensures raises result (computation >>= next) := by
  cases computation with
  | ok value => exact later value first
  | error failure => exact first

theorem mapError {Other : Type u} {change : Failure → Other} {raised : Other → Prop}
    (ensures : Ensures raises post computation)
    (implied : ∀ failure, raises failure → raised (change failure)) :
    Ensures raised post (computation.mapError change) := by
  cases computation with
  | ok value => exact ensures
  | error failure => exact implied failure ensures

/-- A loop keeps what each of its steps keeps. -/
theorem foldlM {Item : Type v} {step : Value → Item → Except Failure Value} {items : List Item}
    (kept : ∀ value, ∀ item ∈ items, post value → Ensures raises post (step value item))
    {start : Value} (initially : post start) :
    Ensures raises post (items.foldlM step start) := by
  induction items generalizing start with
  | nil => exact initially
  | cons item rest inductionHypothesis =>
      rw [List.foldlM_cons]
      apply bind (kept start item List.mem_cons_self initially)
      intro next holds
      exact inductionHypothesis
        (fun value other membership => kept value other (List.mem_cons_of_mem item membership))
        holds

/-- A computation that may fail in no way returns. -/
theorem returns (ensures : Ensures (fun _ => False) post computation) :
    ∃ value, computation = .ok value ∧ post value := by
  cases computation with
  | ok value => exact ⟨value, rfl, ensures⟩
  | error failure => exact ensures.elim

theorem cases (ensures : Ensures raises post computation) :
    (∃ value, computation = .ok value ∧ post value) ∨
      ∃ failure, computation = .error failure ∧ raises failure := by
  cases computation with
  | ok value => exact .inl ⟨value, rfl, ensures⟩
  | error failure => exact .inr ⟨failure, rfl, ensures⟩

end Ensures

end Lucky.Systems
