import Lucky.Epoller.Filed
import Lucky.Systems.Fallible
import Lucky.Systems.Machine

/-!
# Registration of `Filed`s

Three records say how a `Filed` is registered: its `index_`, the map `fileds_`
and the kernel's interest list.  `Registered` relates them.  `update` and
`remove` restore the relation for their own descriptor and touch no other one.
-/

namespace Lucky

open Systems

variable {Ptr : Type}

/-- `index` is what `fileds_` and the kernel hold for the descriptor, the kernel
with the given mask and data pointer. -/
structure Registered (epoller : Epoller Ptr) (ptr : Ptr) (fd : Nat) (index : Index)
    (mask : Mask) : Prop where
  mapped : epoller.fileds fd = if index = .kNew then none else some ptr
  monitored : epoller.interest fd = if index = .kAdded then some ⟨mask, ptr⟩ else none

structure AgreeOff (fd : Nat) (before after : Epoller Ptr) : Prop where
  fileds : ∀ other, other ≠ fd → after.fileds other = before.fileds other
  interest : ∀ other, other ≠ fd → after.interest other = before.interest other
  failedCtl : after.failedCtl = before.failedCtl

theorem AgreeOff.refl (fd : Nat) (epoller : Epoller Ptr) : AgreeOff fd epoller epoller :=
  ⟨fun _ _ => rfl, fun _ _ => rfl, rfl⟩

theorem AgreeOff.trans {fd : Nat} {first second third : Epoller Ptr}
    (left : AgreeOff fd first second) (right : AgreeOff fd second third) :
    AgreeOff fd first third :=
  ⟨fun other apart => (right.fileds other apart).trans (left.fileds other apart),
    fun other apart => (right.interest other apart).trans (left.interest other apart),
    right.failedCtl.trans left.failedCtl⟩

theorem AgreeOff.setFileds (epoller : Epoller Ptr) (fd : Nat) (entry : Option Ptr) :
    AgreeOff fd epoller { epoller with fileds := Function.update epoller.fileds fd entry } :=
  ⟨fun _ apart => Function.update_of_ne apart _ _, fun _ _ => rfl, rfl⟩

theorem AgreeOff.setInterest (epoller : Epoller Ptr) (fd : Nat)
    (entry : Option (EpollEvent Ptr)) :
    AgreeOff fd epoller { epoller with interest := Function.update epoller.interest fd entry } :=
  ⟨fun _ _ => rfl, fun _ apart => Function.update_of_ne apart _ _, rfl⟩

theorem Registered.congr {fd other : Nat} {before after : Epoller Ptr} {ptr : Ptr}
    {index : Index} {mask : Mask} (registered : Registered before ptr other index mask)
    (agree : AgreeOff fd before after) (apart : other ≠ fd) :
    Registered after ptr other index mask :=
  ⟨(agree.fileds other apart).trans registered.mapped,
    (agree.interest other apart).trans registered.monitored⟩

def Filed.updatedIndex (f : Filed) : Index :=
  match f.index with
  | .kAdded => if f.isNoneEvent then .kDeleted else .kAdded
  | .kNew | .kDeleted => .kAdded

theorem Filed.updatedIndex_ne (f : Filed) : f.updatedIndex ≠ .kNew := by
  unfold updatedIndex
  split
  · split <;> simp
  · simp
  · simp

/-- What the kernel accepts becomes its interest list. -/
theorem Epoller.updateHelper_ok {epoller : Epoller Ptr} {operation : EpollOperation} {ptr : Ptr}
    {f : Filed} {interest : InterestList Ptr}
    (accepted : epollCtl epoller.interest operation f.fd ⟨f.events, ptr⟩ = some interest) :
    epoller.updateHelper operation ptr f = .ok { epoller with interest := interest } := by
  rw [updateHelper, accepted]

/-- `remove` succeeds and leaves no trace of the descriptor. -/
theorem Epoller.remove_registered {epoller : Epoller Ptr} {ptr : Ptr} {f : Filed}
    {mask : Mask} (registered : Registered epoller ptr f.fd f.index mask) :
    ∃ after, epoller.remove ptr f = .ok (after, { f with index := .kNew }) ∧
      Registered after ptr f.fd .kNew f.events ∧
      AgreeOff f.fd epoller after := by
  obtain ⟨mapped, monitored⟩ := registered
  have erased := AgreeOff.setFileds epoller f.fd none
  by_cases added : f.index = .kAdded
  · rw [if_pos added] at monitored
    have accepted : epollCtl epoller.interest .EPOLL_CTL_DEL f.fd ⟨f.events, ptr⟩ =
        some (Function.update epoller.interest f.fd none) := by
      simp [epollCtl, monitored]
    refine ⟨_, ?_, ⟨?_, ?_⟩, erased.trans (.setInterest _ f.fd none)⟩
    · simp only [Epoller.remove, if_pos added, updateHelper, accepted]
      rfl
    · exact Function.update_self ..
    · exact Function.update_self ..
  · rw [if_neg added] at monitored
    refine ⟨_, ?_, ⟨?_, ?_⟩, erased⟩
    · rw [Epoller.remove, if_neg added]
      rfl
    · exact Function.update_self ..
    · exact monitored

theorem Epoller.remove_filed {epoller after : Epoller Ptr} {ptr : Ptr} {f g : Filed}
    (returned : epoller.remove ptr f = .ok (after, g)) : g = { f with index := .kNew } := by
  dsimp only [Epoller.remove] at returned
  split at returned <;> rcases bind_eq_ok.mp returned with ⟨_, _, finished⟩ <;>
    cases finished <;>
    rfl

variable [DecidableEq Ptr]

/-- `update` succeeds and registers the `Filed` with its current events. -/
theorem Epoller.update_registered {epoller : Epoller Ptr} {ptr : Ptr} {f : Filed}
    {mask : Mask} (registered : Registered epoller ptr f.fd f.index mask) :
    ∃ after, epoller.update ptr f = .ok (after, { f with index := f.updatedIndex }) ∧
      Registered after ptr f.fd f.updatedIndex f.events ∧
      AgreeOff f.fd epoller after := by
  rcases f with ⟨fd, events, revents, index, tied⟩
  rcases registered with ⟨mapped, monitored⟩
  cases index with
  | kNew =>
      simp only [reduceCtorEq, if_false] at monitored
      have accepted : epollCtl epoller.interest .EPOLL_CTL_ADD fd ⟨events, ptr⟩ =
          some (Function.update epoller.interest fd (some ⟨events, ptr⟩)) := by
        simp [epollCtl, monitored]
      have mappedNow := AgreeOff.setFileds epoller fd (some ptr)
      refine ⟨_, ?_, ⟨?_, ?_⟩, mappedNow.trans (.setInterest _ fd (some ⟨events, ptr⟩))⟩
      · simp only [Epoller.update]
        rw [updateHelper_ok accepted]
        rfl
      · exact Function.update_self ..
      · exact Function.update_self ..
  | kDeleted =>
      simp only [reduceCtorEq, if_false] at mapped monitored
      have accepted : epollCtl epoller.interest .EPOLL_CTL_ADD fd ⟨events, ptr⟩ =
          some (Function.update epoller.interest fd (some ⟨events, ptr⟩)) := by
        simp [epollCtl, monitored]
      refine ⟨_, ?_, ⟨?_, ?_⟩, .setInterest epoller fd (some ⟨events, ptr⟩)⟩
      · simp only [Epoller.update, mapped, Option.isNone_some, Bool.false_eq_true, ne_eq,
          not_true_eq_false, if_false]
        rw [updateHelper_ok accepted]
        rfl
      · exact mapped
      · exact Function.update_self ..
  | kAdded =>
      simp only [reduceCtorEq, if_false, if_true] at mapped monitored
      by_cases silent : events = Filed.kNoneEvent
      · have accepted : epollCtl epoller.interest .EPOLL_CTL_DEL fd ⟨events, ptr⟩ =
            some (Function.update epoller.interest fd none) := by
          simp [epollCtl, monitored]
        have deleted : Filed.updatedIndex ⟨fd, events, revents, .kAdded, tied⟩ = .kDeleted := by
          simp [Filed.updatedIndex, Filed.isNoneEvent, silent]
        have isNone : Filed.isNoneEvent ⟨fd, events, revents, .kAdded, tied⟩ = true := by
          simp [Filed.isNoneEvent, silent]
        rw [deleted]
        refine ⟨_, ?_, ⟨?_, ?_⟩, .setInterest epoller fd none⟩
        · simp only [Epoller.update, isNone, if_true]
          rw [updateHelper_ok accepted]
          rfl
        · exact mapped
        · exact Function.update_self ..
      · have accepted : epollCtl epoller.interest .EPOLL_CTL_MOD fd ⟨events, ptr⟩ =
            some (Function.update epoller.interest fd (some ⟨events, ptr⟩)) := by
          simp [epollCtl, monitored]
        have added : Filed.updatedIndex ⟨fd, events, revents, .kAdded, tied⟩ = .kAdded := by
          simp [Filed.updatedIndex, Filed.isNoneEvent, silent]
        have isSome : Filed.isNoneEvent ⟨fd, events, revents, .kAdded, tied⟩ = false := by
          simp [Filed.isNoneEvent, silent]
        rw [added]
        refine ⟨_, ?_, ⟨?_, ?_⟩, .setInterest epoller fd (some ⟨events, ptr⟩)⟩
        · simp only [Epoller.update, isSome, Bool.false_eq_true, if_false]
          rw [updateHelper_ok accepted]
          rfl
        · exact mapped
        · exact Function.update_self ..

/-- An `update` that returns has set `index_` and nothing else in the `Filed`. -/
theorem Epoller.update_filed {epoller after : Epoller Ptr} {ptr : Ptr} {f g : Filed}
    (returned : epoller.update ptr f = .ok (after, g)) :
    g = { f with index := f.updatedIndex } := by
  rcases f with ⟨fd, events, revents, index, tied⟩
  cases index with
  | kNew =>
      rcases bind_eq_ok.mp returned with ⟨_, _, finished⟩
      cases finished
      rfl
  | kDeleted =>
      simp only [Epoller.update] at returned
      split at returned
      · cases returned
      · split at returned
        · cases returned
        · rcases bind_eq_ok.mp returned with ⟨_, _, finished⟩
          cases finished
          rfl
  | kAdded =>
      simp only [Epoller.update] at returned
      simp only [Filed.updatedIndex]
      split at returned
      next unmonitored =>
        rcases bind_eq_ok.mp returned with ⟨_, _, finished⟩
        cases finished
        simp [unmonitored]
      next monitored =>
        rcases bind_eq_ok.mp returned with ⟨_, _, finished⟩
        cases finished
        simp [monitored]

/-! ## Any number of `Filed`s on one loop -/

inductive Filed.Request where
  | enableReading
  | disableReading
  | enableWriting
  | disableWriting
  | disableAll
  | remove
  deriving DecidableEq, Repr

def Filed.Request.call : Filed.Request → Epoller Ptr → Ptr → Filed →
    Except Fault (Epoller Ptr × Filed)
  | .enableReading => Filed.enableReading
  | .disableReading => Filed.disableReading
  | .enableWriting => Filed.enableWriting
  | .disableWriting => Filed.disableWriting
  | .disableAll => Filed.disableAll
  | .remove => Filed.remove

def Filed.Request.events (events : Mask) : Filed.Request → Mask
  | .enableReading => events ||| kReadEvent
  | .disableReading => events &&& ~~~kReadEvent
  | .enableWriting => events ||| kWriteEvent
  | .disableWriting => events &&& ~~~kWriteEvent
  | .disableAll => kNoneEvent
  | .remove => events

def Filed.Request.index (f : Filed) (request : Filed.Request) : Index :=
  match request with
  | .remove => .kNew
  | _ => { f with events := request.events f.events }.updatedIndex

theorem Filed.Request.call_registered {epoller : Epoller Ptr} {ptr : Ptr} {f : Filed}
    (request : Filed.Request)
    (registered : Registered epoller ptr f.fd f.index f.events) :
    ∃ after, request.call epoller ptr f =
        .ok (after, { f with events := request.events f.events, index := request.index f }) ∧
      Registered after ptr f.fd (request.index f) (request.events f.events) ∧
      AgreeOff f.fd epoller after := by
  have updated (events : Mask) :=
    Epoller.update_registered (f := { f with events := events }) registered
  cases request with
  | enableReading => exact updated (f.events ||| kReadEvent)
  | disableReading => exact updated (f.events &&& ~~~kReadEvent)
  | enableWriting => exact updated (f.events ||| kWriteEvent)
  | disableWriting => exact updated (f.events &&& ~~~kWriteEvent)
  | disableAll => exact updated kNoneEvent
  | remove => exact Epoller.remove_registered registered

/-- A loop's `Epoller` with the `Filed`s attached to the loop. -/
structure Attached (Ptr : Type) where
  filed : Ptr → Filed
  epoller : Epoller Ptr

namespace Attached

def make (fd : Ptr → Nat) : Attached Ptr := ⟨fun p => Filed.make (fd p), Epoller.make⟩

/-- A step is a request that returns. -/
def requests : Machine (Attached Ptr) (Ptr × Filed.Request) where
  step state action :=
    match action.2.call state.epoller action.1 (state.filed action.1) with
    | .ok (epoller, f) => some ⟨Function.update state.filed action.1 f, epoller⟩
    | .error _ => none

structure Consistent (fd : Ptr → Nat) (state : Attached Ptr) : Prop where
  descriptor : ∀ p, (state.filed p).fd = fd p
  registered : ∀ p, Registered state.epoller p (state.filed p).fd (state.filed p).index
    (state.filed p).events
  succeeded : state.epoller.failedCtl = 0

omit [DecidableEq Ptr] in
theorem make_consistent (fd : Ptr → Nat) : Consistent fd (make fd) :=
  ⟨fun _ => rfl, fun _ => ⟨rfl, rfl⟩, rfl⟩

theorem Consistent.step {fd : Ptr → Nat} (distinct : Function.Injective fd)
    {state : Attached Ptr} (consistent : Consistent fd state)
    (action : Ptr × Filed.Request) :
    ∃ next, requests.step state action = some next ∧ Consistent fd next := by
  rcases action with ⟨p, request⟩
  rcases request.call_registered (consistent.registered p) with
    ⟨after, called, registered, agree⟩
  refine ⟨_, by simp only [requests, called]; rfl, ?_, ?_, ?_⟩
  · intro q
    by_cases same : q = p
    · subst same
      simpa using consistent.descriptor q
    · simpa [same] using consistent.descriptor q
  · intro q
    by_cases same : q = p
    · subst same
      simpa using registered
    · have apart : (state.filed q).fd ≠ (state.filed p).fd := by
        rw [consistent.descriptor, consistent.descriptor]
        exact fun equal => same (distinct equal)
      simpa [same] using (consistent.registered q).congr agree apart
  · exact agree.failedCtl.trans consistent.succeeded

/-- No request ever fails, so every list of requests is a run. -/
theorem Consistent.exec {fd : Ptr → Nat} (distinct : Function.Injective fd)
    {state : Attached Ptr} (consistent : Consistent fd state)
    (actions : List (Ptr × Filed.Request)) :
    ∃ final, requests.exec state actions = some final ∧ Consistent fd final := by
  induction actions generalizing state with
  | nil => exact ⟨state, rfl, consistent⟩
  | cons action rest inductionHypothesis =>
      rcases consistent.step distinct action with ⟨next, stepped, nextConsistent⟩
      rcases inductionHypothesis nextConsistent with ⟨final, run, finalConsistent⟩
      exact ⟨final, (requests.exec_cons_eq_some).mpr ⟨next, stepped, run⟩, finalConsistent⟩

/-- After any requests on `Filed`s with distinct descriptors, `index_`,
`fileds_` and the kernel agree for every one of them.  The run exists for every
list, so no `assert` fails and `LOG_FATAL` is not reached, and no `epoll_ctl`
has failed. -/
theorem registration_consistent (fd : Ptr → Nat) (distinct : Function.Injective fd)
    (actions : List (Ptr × Filed.Request)) :
    ∃ state, requests.exec (make fd) actions = some state ∧
      state.epoller.failedCtl = 0 ∧
      ∀ p, let f := state.filed p
        f.fd = fd p ∧
        (f.index = .kNew ↔ state.epoller.fileds f.fd = none) ∧
        (f.index = .kAdded ↔ (state.epoller.interest f.fd).isSome) ∧
        (f.index = .kAdded → state.epoller.interest f.fd = some ⟨f.events, p⟩ ∧
          state.epoller.fileds f.fd = some p) ∧
        (f.index = .kDeleted ↔ state.epoller.fileds f.fd = some p ∧
          state.epoller.interest f.fd = none) ∧
        (state.epoller.hasFiled p f = true ↔ f.index ≠ .kNew) := by
  rcases (make_consistent fd).exec distinct actions with ⟨state, run, consistent⟩
  refine ⟨state, run, consistent.succeeded, ?_⟩
  intro p
  rcases consistent.registered p with ⟨mapped, monitored⟩
  refine ⟨consistent.descriptor p, ?_⟩
  simp only [Epoller.hasFiled, mapped, monitored]
  cases (state.filed p).index <;> simp

/-- Descriptor 3 is deleted and added again, 5 removed. -/
theorem registration_consistent_readded :
    ∃ state, requests.exec (make (id : Nat → Nat))
        [(3, .enableReading), (5, .enableWriting), (3, .disableAll), (5, .remove),
          (3, .enableWriting)] = some state ∧
      state.epoller.failedCtl = 0 ∧
      ((state.filed 3).index = .kAdded ↔ (state.epoller.interest (state.filed 3).fd).isSome) := by
  rcases registration_consistent id Function.injective_id
    [(3, .enableReading), (5, .enableWriting), (3, .disableAll), (5, .remove),
      (3, .enableWriting)] with ⟨state, run, succeeded, consistent⟩
  exact ⟨state, run, succeeded, (consistent 3).2.2.1⟩

end Attached

end Lucky
