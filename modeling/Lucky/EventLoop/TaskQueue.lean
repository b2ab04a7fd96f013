import Mathlib.Tactic.Common

/-!
# The task queue of a loop

`pendFuncs_` collects the functors other code hands to a loop.  `doPendFunc`
swaps it with its empty local vector `functors` and runs that batch by index;
the vector keeps all its functors until the function returns.
-/

namespace Lucky

variable {F : Type}

structure TaskQueue (F : Type) where
  pendFuncs : List F
  functors : List F
  /-- Number of functors of the batch that have been started. -/
  position : Nat
  deriving DecidableEq, Repr

namespace TaskQueue

def empty : TaskQueue F := ⟨[], [], 0⟩

/-- `pendFuncs_.emplace_back(cb)`. -/
def push (queue : TaskQueue F) (functor : F) : TaskQueue F :=
  { queue with pendFuncs := queue.pendFuncs ++ [functor] }

/-- `functors.swap(pendFuncs_)`. -/
def swap (queue : TaskQueue F) : TaskQueue F := ⟨[], queue.pendFuncs, 0⟩

def next? (queue : TaskQueue F) : Option F := queue.functors[queue.position]?

def advance (queue : TaskQueue F) : TaskQueue F :=
  { queue with position := queue.position + 1 }

/-- The end of `doPendFunc` destroys the batch. -/
def finish (queue : TaskQueue F) : TaskQueue F := { queue with functors := [], position := 0 }

def remaining (queue : TaskQueue F) : List F := queue.functors.drop queue.position

/-- Everything that has been queued and not been started, in order. -/
def contents (queue : TaskQueue F) : List F := queue.remaining ++ queue.pendFuncs

@[simp]
theorem remaining_push (queue : TaskQueue F) (functor : F) :
    (queue.push functor).remaining = queue.remaining := rfl

@[simp]
theorem remaining_swap (queue : TaskQueue F) : queue.swap.remaining = queue.pendFuncs := rfl

@[simp]
theorem pendFuncs_swap (queue : TaskQueue F) : queue.swap.pendFuncs = [] := rfl

@[simp]
theorem remaining_finish (queue : TaskQueue F) : queue.finish.remaining = [] := rfl

@[simp]
theorem pendFuncs_finish (queue : TaskQueue F) : queue.finish.pendFuncs = queue.pendFuncs := rfl

@[simp]
theorem contents_push (queue : TaskQueue F) (functor : F) :
    (queue.push functor).contents = queue.contents ++ [functor] := by
  simp [contents, push, remaining]

theorem foldl_push (queue : TaskQueue F) (functors : List F) :
    functors.foldl push queue = { queue with pendFuncs := queue.pendFuncs ++ functors } := by
  induction functors generalizing queue with
  | nil => simp
  | cons functor rest inductionHypothesis =>
      rw [List.foldl_cons, inductionHypothesis]
      simp [push]

theorem contents_foldl_push (queue : TaskQueue F) (functors : List F) :
    (functors.foldl push queue).contents = queue.contents ++ functors := by
  simp [foldl_push, contents, remaining]

@[simp]
theorem remaining_foldl_push (queue : TaskQueue F) (functors : List F) :
    (functors.foldl push queue).remaining = queue.remaining := by
  rw [foldl_push, remaining, remaining]

theorem remaining_eq_nil_iff {queue : TaskQueue F} :
    queue.remaining = [] ↔ queue.next? = none := by
  simp [remaining, next?]

theorem remaining_of_next {queue : TaskQueue F} {functor : F}
    (found : queue.next? = some functor) :
    queue.remaining = functor :: queue.advance.remaining := by
  obtain ⟨inside, equality⟩ := List.getElem?_eq_some_iff.mp found
  rw [remaining, List.drop_eq_getElem_cons inside, equality]
  rfl

theorem contents_of_next {queue : TaskQueue F} {functor : F}
    (found : queue.next? = some functor) :
    queue.contents = functor :: queue.advance.contents := by
  simp [contents, remaining_of_next found, advance]

theorem mem_remaining_of_next {queue : TaskQueue F} {functor : F}
    (found : queue.next? = some functor) : functor ∈ queue.remaining := by
  rw [remaining_of_next found]
  exact List.mem_cons_self

theorem mem_contents_of_next {queue : TaskQueue F} {functor : F}
    (found : queue.next? = some functor) : functor ∈ queue.contents :=
  List.mem_append_left _ (mem_remaining_of_next found)

theorem contents_swap {queue : TaskQueue F} (finished : queue.remaining = []) :
    queue.swap.contents = queue.contents := by
  simp [contents, finished]

theorem contents_finish {queue : TaskQueue F} (finished : queue.remaining = []) :
    queue.finish.contents = queue.contents := by
  simp [contents, finished]

theorem mem_of_mem_swap {queue : TaskQueue F} {functor : F}
    (membership : functor ∈ queue.swap.contents) : functor ∈ queue.contents := by
  rw [contents, remaining_swap, pendFuncs_swap, List.append_nil] at membership
  exact List.mem_append_right _ membership

theorem mem_of_mem_finish {queue : TaskQueue F} {functor : F}
    (membership : functor ∈ queue.finish.contents) : functor ∈ queue.contents :=
  List.mem_append_right _ membership

theorem mem_of_mem_advance {queue : TaskQueue F} {first functor : F}
    (found : queue.next? = some first) (membership : functor ∈ queue.advance.contents) :
    functor ∈ queue.contents := by
  rw [contents_of_next found]
  exact List.mem_cons_of_mem first membership

end TaskQueue

end Lucky
