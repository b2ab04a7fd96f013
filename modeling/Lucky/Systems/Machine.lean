import Mathlib.Algebra.Order.Ring.Nat
import Mathlib.Tactic.Common

/-!
# Guarded step machines

A machine is an executable step function: `step state action` is the next
state when the action is enabled and `none` otherwise.  Nondeterminism, such as
the choice of the thread that moves or the answer of an operating system call,
is part of the action, so a run is a list of actions.

`Always` states that a property holds in every state of a run, `Guarded` that
every step of a run meets a condition on its action and the state before it.
The rules below carry facts about one step to facts about whole runs.
-/

namespace Lucky.Systems

universe u v w x

structure Machine (State : Type u) (Action : Type v) where
  step : State → Action → Option State

namespace Machine

variable {State : Type u} {Action : Type v}

/-- Run the actions in order; `none` when one of them is disabled. -/
def exec (machine : Machine State Action) : State → List Action → Option State
  | state, [] => some state
  | state, action :: rest =>
      (machine.step state action).bind fun next => exec machine next rest

/-- The property holds in the first state and after every step of the run. -/
def Always (machine : Machine State Action) (property : State → Prop) :
    State → List Action → Prop
  | state, [] => property state
  | state, action :: rest => property state ∧
      ∀ next, machine.step state action = some next →
        Always machine property next rest

/-- Every step of the run meets the guard in the state before it. -/
def Guarded (machine : Machine State Action) (guard : State → Action → Prop) :
    State → List Action → Prop
  | _, [] => True
  | state, action :: rest =>
      ∀ next, machine.step state action = some next →
        guard state action ∧ Guarded machine guard next rest

instance decidableAlways (machine : Machine State Action) (property : State → Prop)
    [DecidablePred property] :
    ∀ state actions, Decidable (machine.Always property state actions)
  | state, [] => inferInstanceAs (Decidable (property state))
  | state, action :: rest =>
      match stepped : machine.step state action with
      | none => decidable_of_iff (property state) (by simp [Always, stepped])
      | some next =>
          have := decidableAlways machine property next rest
          decidable_of_iff (property state ∧ machine.Always property next rest)
            (by simp [Always, stepped])

instance decidableGuarded (machine : Machine State Action)
    (guard : State → Action → Prop) [∀ state action, Decidable (guard state action)] :
    ∀ state actions, Decidable (machine.Guarded guard state actions)
  | _, [] => isTrue trivial
  | state, action :: rest =>
      match stepped : machine.step state action with
      | none => isTrue (by simp [Guarded, stepped])
      | some next =>
          have := decidableGuarded machine guard next rest
          decidable_of_iff (guard state action ∧ machine.Guarded guard next rest)
            (by simp [Guarded, stepped])

/-- A run without end: the state before every step, and its action. -/
def Endless (machine : Machine State Action) (states : Nat → State) (actions : Nat → Action) :
    Prop :=
  ∀ i, machine.step (states i) (actions i) = some (states (i + 1))

/-- The states of the run with the given actions; a disabled action is left out. -/
def follow (machine : Machine State Action) (start : State) (actions : Nat → Action) :
    Nat → State
  | 0 => start
  | i + 1 =>
      (machine.step (follow machine start actions i) (actions i)).getD
        (follow machine start actions i)

def Reachable (machine : Machine State Action) (start state : State) : Prop :=
  ∃ actions, machine.exec start actions = some state

variable (machine : Machine State Action)

theorem exec_cons (state : State) (action : Action) (rest : List Action) :
    machine.exec state (action :: rest) =
      (machine.step state action).bind fun next => machine.exec next rest := rfl

theorem exec_cons_eq_some
    {state final : State} {action : Action} {rest : List Action} :
    machine.exec state (action :: rest) = some final ↔
      ∃ next, machine.step state action = some next ∧
        machine.exec next rest = some final := by
  simp [exec_cons, Option.bind_eq_some_iff]

theorem exec_append (state : State) (first second : List Action) :
    machine.exec state (first ++ second) =
      (machine.exec state first).bind fun middle => machine.exec middle second := by
  induction first generalizing state with
  | nil => rfl
  | cons action rest inductionHypothesis =>
      rw [List.cons_append, exec_cons, exec_cons, Option.bind_assoc]
      exact congrArg _ (funext inductionHypothesis)

variable {machine}

theorem Always.first {property : State → Prop} {state : State} {actions : List Action}
    (always : machine.Always property state actions) : property state := by
  cases actions with
  | nil => exact always
  | cons => exact always.1

theorem exec_guarded_invariant
    (invariant : State → Prop) {guard : State → Action → Prop}
    (kept : ∀ state action next, invariant state → guard state action →
      machine.step state action = some next → invariant next)
    {start final : State} {actions : List Action}
    (initially : invariant start)
    (guarded : machine.Guarded guard start actions)
    (run : machine.exec start actions = some final) :
    invariant final := by
  induction actions generalizing start with
  | nil => exact Option.some.inj run ▸ initially
  | cons action rest inductionHypothesis =>
      rcases (machine.exec_cons_eq_some).mp run with ⟨next, stepped, restRun⟩
      have step := guarded next stepped
      exact inductionHypothesis (kept start action next initially step.1 stepped)
        step.2 restRun

theorem Guarded.and {first second : State → Action → Prop} {state : State}
    {actions : List Action} (left : machine.Guarded first state actions)
    (right : machine.Guarded second state actions) :
    machine.Guarded (fun state action => first state action ∧ second state action) state
      actions := by
  induction actions generalizing state with
  | nil => trivial
  | cons action rest inductionHypothesis =>
      intro next stepped
      obtain ⟨one, restLeft⟩ := left next stepped
      obtain ⟨two, restRight⟩ := right next stepped
      exact ⟨⟨one, two⟩, inductionHypothesis restLeft restRight⟩

theorem guarded_true (state : State) (actions : List Action) :
    machine.Guarded (fun _ _ => True) state actions := by
  induction actions generalizing state with
  | nil => trivial
  | cons action rest inductionHypothesis =>
      exact fun next _ => ⟨trivial, inductionHypothesis next⟩

theorem guarded_of_mem {guard : State → Action → Prop} {actions : List Action}
    (each : ∀ action ∈ actions, ∀ state, guard state action) (state : State) :
    machine.Guarded guard state actions := by
  induction actions generalizing state with
  | nil => trivial
  | cons action rest inductionHypothesis =>
      intro next _
      refine ⟨each action (List.mem_cons_self) state, ?_⟩
      exact inductionHypothesis (fun other membership =>
        each other (List.mem_cons_of_mem action membership)) next

theorem exec_invariant
    {invariant : State → Prop}
    (kept : ∀ state action next, invariant state →
      machine.step state action = some next → invariant next)
    {start final : State} {actions : List Action}
    (initially : invariant start)
    (run : machine.exec start actions = some final) :
    invariant final :=
  exec_guarded_invariant invariant
    (fun state action next holds _ stepped => kept state action next holds stepped)
    initially (guarded_true start actions) run

/-- A reflexive and transitive relation kept by every guarded step from an invariant
state relates the two ends of a guarded run. -/
theorem exec_guarded_related
    (invariant : State → Prop) {guard : State → Action → Prop}
    {related : State → State → Prop}
    (reflexive : ∀ state, related state state)
    (transitive : ∀ first second third, related first second → related second third →
      related first third)
    (kept : ∀ state action next, invariant state → guard state action →
      machine.step state action = some next → invariant next ∧ related state next)
    {start final : State} {actions : List Action}
    (initially : invariant start)
    (guarded : machine.Guarded guard start actions)
    (run : machine.exec start actions = some final) :
    related start final := by
  induction actions generalizing start with
  | nil => exact Option.some.inj run ▸ reflexive start
  | cons action rest inductionHypothesis =>
      rcases (machine.exec_cons_eq_some).mp run with ⟨next, stepped, restRun⟩
      have step := guarded next stepped
      obtain ⟨later, relatedStep⟩ := kept start action next initially step.1 stepped
      exact transitive start next final relatedStep
        (inductionHypothesis later step.2 restRun)

theorem Endless.invariant {states : Nat → State} {actions : Nat → Action}
    (run : machine.Endless states actions)
    (invariant : State → Prop) {guard : State → Action → Prop}
    (kept : ∀ state action next, invariant state → guard state action →
      machine.step state action = some next → invariant next)
    (initially : invariant (states 0))
    (guarded : ∀ i, guard (states i) (actions i)) (i : Nat) : invariant (states i) := by
  induction i with
  | zero => exact initially
  | succ i inductionHypothesis =>
      exact kept (states i) (actions i) (states (i + 1)) inductionHypothesis (guarded i) (run i)

/-- Where the next action is always enabled, the run goes on without end. -/
theorem endless_follow_at (invariant : Nat → State → Prop) {start : State}
    {actions : Nat → Action}
    (enabled : ∀ i state, invariant i state →
      ∃ next, machine.step state (actions i) = some next ∧ invariant (i + 1) next)
    (initially : invariant 0 start) :
    machine.Endless (machine.follow start actions) actions := by
  have holds : ∀ i, invariant i (machine.follow start actions i) := by
    intro i
    induction i with
    | zero => exact initially
    | succ i inductionHypothesis =>
        obtain ⟨next, stepped, kept⟩ := enabled i _ inductionHypothesis
        rwa [follow, stepped]
  intro i
  obtain ⟨next, stepped, _⟩ := enabled i _ (holds i)
  rw [follow, stepped]
  rfl

theorem endless_follow (invariant : State → Prop) {start : State} {actions : Nat → Action}
    (enabled : ∀ i state, invariant state →
      ∃ next, machine.step state (actions i) = some next ∧ invariant next)
    (initially : invariant start) : machine.Endless (machine.follow start actions) actions :=
  endless_follow_at (fun _ => invariant) enabled initially

/-- A run that ends where it began goes round without end. -/
theorem endless_cycle {start : State} {cycle : List Action} {actions : Nat → Action}
    (run : machine.exec start cycle = some start) (nonempty : 0 < cycle.length)
    (repeats : ∀ i, cycle[i % cycle.length]? = some (actions i)) :
    machine.Endless (machine.follow start actions) actions := by
  -- what is left of the round leads back to its start
  apply endless_follow_at (fun i state =>
    machine.exec state (cycle.drop (i % cycle.length)) = some start)
  · intro i state left
    have inside := Nat.mod_lt i nonempty
    have action : cycle[i % cycle.length] = actions i :=
      Option.some.inj ((List.getElem?_eq_getElem inside).symm.trans (repeats i))
    rw [List.drop_eq_getElem_cons inside, action, exec_cons_eq_some] at left
    obtain ⟨next, stepped, rest⟩ := left
    refine ⟨next, stepped, ?_⟩
    rw [← Nat.mod_add_mod i cycle.length 1]
    by_cases wraps : i % cycle.length + 1 = cycle.length
    · rw [wraps, List.drop_length] at rest
      cases rest
      rw [wraps, Nat.mod_self]
      exact run
    · rw [Nat.mod_eq_of_lt (Nat.lt_of_le_of_ne inside wraps)]
      exact rest
  · exact run

/-- A run may be put before a run without end. -/
theorem Endless.after {start middle : State} {before : List Action} {states : Nat → State}
    {actions : Nat → Action} (endless : machine.Endless states actions)
    (begins : states 0 = middle) (run : machine.exec start before = some middle) :
    ∃ (earlier : Nat → State) (all : Nat → Action), machine.Endless earlier all ∧
      earlier 0 = start ∧ (∀ i, earlier (before.length + i) = states i) ∧
      (∀ i, all (before.length + i) = actions i) ∧
      ∀ i, all i ∈ before ∨ ∃ j, all i = actions j := by
  induction before generalizing start with
  | nil =>
      cases run
      refine ⟨states, actions, endless, begins, ?_, ?_, fun i => .inr ⟨i, rfl⟩⟩
      · exact fun i => congrArg states (Nat.zero_add i)
      · exact fun i => congrArg actions (Nat.zero_add i)
  | cons action rest inductionHypothesis =>
      obtain ⟨next, stepped, restRun⟩ := (machine.exec_cons_eq_some).mp run
      obtain ⟨earlier, all, runs, first, reached, later, source⟩ := inductionHypothesis restRun
      refine ⟨fun i => i.casesOn start earlier, fun i => i.casesOn action all,
        ?_, rfl, ?_, ?_, ?_⟩
      · intro i
        cases i with
        | zero =>
            rw [← first] at stepped
            exact stepped
        | succ i => exact runs i
      · intro i
        rw [List.length_cons, Nat.succ_add]
        exact reached i
      · intro i
        rw [List.length_cons, Nat.succ_add]
        exact later i
      · intro i
        cases i with
        | zero => exact .inl List.mem_cons_self
        | succ i => exact (source i).imp_left (List.mem_cons_of_mem action)

theorem Reachable.invariant
    {invariant : State → Prop}
    (kept : ∀ state action next, invariant state →
      machine.step state action = some next → invariant next)
    {start state : State} (initially : invariant start)
    (reached : machine.Reachable start state) : invariant state := by
  rcases reached with ⟨actions, run⟩
  exact exec_invariant kept initially run

theorem Reachable.step {start state next : State} {action : Action}
    (reached : machine.Reachable start state) (stepped : machine.step state action = some next) :
    machine.Reachable start next := by
  rcases reached with ⟨actions, run⟩
  refine ⟨actions ++ [action], ?_⟩
  rw [exec_append, run, Option.bind_some]
  exact (machine.exec_cons_eq_some).mpr ⟨next, stepped, rfl⟩

theorem Endless.reachable {states : Nat → State} {actions : Nat → Action} {start : State}
    (run : machine.Endless states actions) (reached : machine.Reachable start (states 0))
    (i : Nat) : machine.Reachable start (states i) := by
  induction i with
  | zero => exact reached
  | succ i inductionHypothesis => exact inductionHypothesis.step (run i)

/-- An invariant of guarded steps that implies the property gives the property
along every guarded run. -/
theorem always_of_guarded
    {invariant property : State → Prop} {guard : State → Action → Prop}
    (kept : ∀ state action next, invariant state → guard state action →
      machine.step state action = some next → invariant next)
    (implied : ∀ state, invariant state → property state)
    {start : State} {actions : List Action}
    (initially : invariant start)
    (guarded : machine.Guarded guard start actions) :
    machine.Always property start actions := by
  induction actions generalizing start with
  | nil => exact implied start initially
  | cons action rest inductionHypothesis =>
      refine ⟨implied start initially, ?_⟩
      intro next stepped
      have step := guarded next stepped
      exact inductionHypothesis (kept start action next initially step.1 stepped) step.2

/-- Two guards that agree on the steps from invariant states hold of the same runs. -/
theorem guarded_iff_guarded
    (invariant : State → Prop) {first second : State → Action → Prop}
    (kept : ∀ state action next, invariant state →
      machine.step state action = some next → invariant next)
    (agree : ∀ state action next, invariant state →
      machine.step state action = some next → (first state action ↔ second state action))
    {start : State} {actions : List Action} (initially : invariant start) :
    machine.Guarded first start actions ↔ machine.Guarded second start actions := by
  induction actions generalizing start with
  | nil => rfl
  | cons action rest inductionHypothesis =>
      apply forall_congr'
      intro next
      apply imp_congr_right
      intro stepped
      exact and_congr (agree start action next initially stepped)
        (inductionHypothesis (kept start action next initially stepped))

/-- When a step from an invariant state has the property exactly if it meets
the guard, a run has the property throughout exactly if all its steps do. -/
theorem always_iff_guarded
    (invariant : State → Prop) {property : State → Prop} {guard : State → Action → Prop}
    (kept : ∀ state action next, invariant state → guard state action →
      machine.step state action = some next → invariant next)
    (implied : ∀ state, invariant state → property state)
    (needed : ∀ state action next, invariant state →
      machine.step state action = some next → property next → guard state action)
    {start : State} {actions : List Action} (initially : invariant start) :
    machine.Always property start actions ↔ machine.Guarded guard start actions := by
  refine ⟨?_, always_of_guarded kept implied initially⟩
  intro always
  induction actions generalizing start with
  | nil => trivial
  | cons action rest inductionHypothesis =>
      intro next stepped
      have later := always.2 next stepped
      have met := needed start action next initially stepped later.first
      exact ⟨met, inductionHypothesis (kept start action next initially met stepped) later⟩

/-- A run that ends with the property has it throughout, or entered it by a last
step after which it kept it. -/
theorem exec_entered (property : State → Prop) {start final : State} {actions : List Action}
    (run : machine.exec start actions = some final) (inside : property final) :
    machine.Always property start actions ∨
      ∃ before action after state next, actions = before ++ action :: after ∧
        machine.exec start before = some state ∧ machine.step state action = some next ∧
        ¬ property state ∧ machine.Always property next after := by
  induction actions generalizing start with
  | nil => exact .inl (Option.some.inj run ▸ inside)
  | cons action rest inductionHypothesis =>
      rcases (machine.exec_cons_eq_some).mp run with ⟨second, stepped, restRun⟩
      rcases inductionHypothesis restRun with
        always | ⟨before, entering, after, state, next, rfl, reached, entered, outside, always⟩
      · by_cases outside : property start
        · left
          refine ⟨outside, fun next other => ?_⟩
          rw [stepped] at other
          exact Option.some.inj other ▸ always
        · exact .inr ⟨[], action, rest, start, second, rfl, rfl, stepped, outside, always⟩
      · refine .inr ⟨action :: before, entering, after, state, next, rfl, ?_, entered, outside,
          always⟩
        exact (machine.exec_cons_eq_some).mpr ⟨second, stepped, reached⟩

/-- Functional refinement: where every guarded step is seen by the abstraction
as one step of `advance`, a guarded run is seen as the fold of `advance`. -/
theorem exec_refines {Abstract : Type w}
    (abstraction : State → Abstract) (advance : Abstract → Action → Abstract)
    (invariant : State → Prop) {guard : State → Action → Prop}
    (kept : ∀ state action next, invariant state → guard state action →
      machine.step state action = some next → invariant next)
    (commutes : ∀ state action next, invariant state → guard state action →
      machine.step state action = some next →
        abstraction next = advance (abstraction state) action)
    {start final : State} {actions : List Action}
    (initially : invariant start)
    (guarded : machine.Guarded guard start actions)
    (run : machine.exec start actions = some final) :
    abstraction final = actions.foldl advance (abstraction start) := by
  induction actions generalizing start with
  | nil => simp [Option.some.inj run]
  | cons action rest inductionHypothesis =>
      rcases (machine.exec_cons_eq_some).mp run with ⟨next, stepped, restRun⟩
      have step := guarded next stepped
      rw [List.foldl_cons, ← commutes start action next initially step.1 stepped]
      exact inductionHypothesis (kept start action next initially step.1 stepped)
        step.2 restRun

/-- Refinement with stuttering: where every step is seen by the abstraction as a step
of the abstract machine, or not at all, a run is seen as a run. -/
theorem exec_simulates {Abstract : Type w} {Label : Type x} (abstract : Machine Abstract Label)
    (abstraction : State → Abstract) (invariant : State → Prop)
    (kept : ∀ state action next, invariant state →
      machine.step state action = some next → invariant next)
    (seen : ∀ state action next, invariant state →
      machine.step state action = some next → abstraction next = abstraction state ∨
        ∃ label, abstract.step (abstraction state) label = some (abstraction next))
    {start final : State} {actions : List Action} (initially : invariant start)
    (run : machine.exec start actions = some final) :
    abstract.Reachable (abstraction start) (abstraction final) := by
  induction actions generalizing start with
  | nil => exact Option.some.inj run ▸ ⟨[], rfl⟩
  | cons action rest inductionHypothesis =>
      rcases (machine.exec_cons_eq_some).mp run with ⟨next, stepped, restRun⟩
      have later := inductionHypothesis (kept start action next initially stepped) restRun
      rcases seen start action next initially stepped with same | ⟨label, visible⟩
      · exact same ▸ later
      · obtain ⟨labels, labelled⟩ := later
        exact ⟨label :: labels, (abstract.exec_cons_eq_some).mpr ⟨_, visible, labelled⟩⟩

theorem sum_map_toNat (counted : Action → Bool) (actions : List Action) :
    (actions.map fun action => (counted action).toNat).sum = actions.countP counted := by
  induction actions with
  | nil => rfl
  | cons action rest inductionHypothesis =>
      rw [List.map_cons, List.sum_cons, inductionHypothesis, List.countP_cons, Nat.add_comm]
      cases counted action <;> rfl

/-- Amortized count: where each step is paid for by the potential and by what it brings in,
so is a run. -/
theorem exec_paid (invariant : State → Prop) (potential : State → Nat)
    (cost gain : Action → Nat)
    (kept : ∀ state action next, invariant state →
      machine.step state action = some next → invariant next)
    (paid : ∀ state action next, invariant state → machine.step state action = some next →
      cost action + potential next ≤ potential state + gain action)
    {start final : State} {actions : List Action} (initially : invariant start)
    (run : machine.exec start actions = some final) :
    (actions.map cost).sum + potential final ≤ potential start + (actions.map gain).sum := by
  induction actions generalizing start with
  | nil =>
      cases run
      exact Nat.le_of_eq (Nat.add_comm _ _)
  | cons action rest inductionHypothesis =>
      rcases (machine.exec_cons_eq_some).mp run with ⟨next, stepped, restRun⟩
      have first := paid start action next initially stepped
      have later := inductionHypothesis (kept start action next initially stepped) restRun
      simp only [List.map_cons, List.sum_cons]
      calc cost action + (rest.map cost).sum + potential final
          = cost action + ((rest.map cost).sum + potential final) := Nat.add_assoc _ _ _
        _ ≤ cost action + (potential next + (rest.map gain).sum) :=
            Nat.add_le_add_left later _
        _ = cost action + potential next + (rest.map gain).sum := (Nat.add_assoc _ _ _).symm
        _ ≤ potential start + gain action + (rest.map gain).sum :=
            Nat.add_le_add_right first _
        _ = potential start + (gain action + (rest.map gain).sum) := Nat.add_assoc _ _ _

end Machine

end Lucky.Systems
