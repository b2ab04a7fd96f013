import Lucky.Connection.Session
import Lucky.EventLoop.TaskOrder

/-!
# What a send from another thread sends

`send` on a thread other than the loop thread binds `buff.c_str()` and
`buff.size()`, not a copy of the bytes.  A string is the place of its characters:
its owner may write there, or give the place up by destroying the string or by
making it move its characters, whenever it is in no call.  The functor reads the
place when the loop thread runs it.
-/

namespace Lucky

open Systems

/-- The characters of a string, owned by one thread. -/
structure Place (Tid : Type) where
  owner : Tid
  number : Nat
  deriving DecidableEq, Repr

/-- A functor on the loop of a connection. -/
inductive Handed (Tid : Type) where
  /-- The `sendinLoop` of `send`; `given` is what the string held at the call. -/
  | sendinLoop (place : Place Tid) (len : Nat) (given : List Byte)
  | other
  deriving DecidableEq, Repr

def Handed.isSend {Tid : Type} : Handed Tid → Bool
  | .sendinLoop _ _ _ => true
  | .other => false

/-- The number of bytes the functor reads from the place. -/
def Handed.lent {Tid : Type} [DecidableEq Tid] (place : Place Tid) : Handed Tid → Option Nat
  | .sendinLoop bound len _ => if bound = place then some len else none
  | .other => none

/-- What the string held at the call of `send`, and what `sendinLoop` received:
`none` when it read from a place that has been given up. -/
structure Receipt where
  given : List Byte
  received : Option (List Byte)
  deriving DecidableEq, Repr

/-- A loop, the strings of the other threads and the sends run so far.  `isConnect` is
the test of `send`. -/
structure Lending (Tid : Type) where
  loop : EventLoop Tid (Handed Tid)
  strings : Place Tid → Option Chunk
  isConnect : Bool
  receipts : List Receipt

namespace Lending

variable {Tid : Type}

def make (strings : Place Tid → Option Chunk) : Lending Tid := ⟨.make, strings, true, []⟩

inductive Action (Tid : Type) where
  /-- `conn->send(s)` up to the lock of `queueinLoop`. -/
  | send (place : Place Tid)
  /-- The owner changes what is at the place, or gives it up. -/
  | assign (place : Place Tid) (text : Option Chunk)
  /-- `state_` is stored. -/
  | setState (isConnect : Bool)
  /-- Anything else on the loop. -/
  | event (action : EventLoop.Action Tid (Handed Tid))

/-- `queueinLoop` or `runinLoop` of the functor that only `send` makes. -/
def submitsSend : EventLoop.Action Tid (Handed Tid) → Bool
  | .queueinLoop _ functor | .runinLoop _ functor => functor.isSend
  | _ => false

/-- The first `len` characters of a string; none at all are read of one that is gone. -/
def firstBytes (text : Option Chunk) (len : Nat) : Option (List Byte) :=
  if len = 0 then some [] else text.map fun text => text.bytes 0 len

theorem firstBytes_data (text : Chunk) : firstBytes (some text) text.len = some text.data := by
  rcases Nat.eq_zero_or_pos text.len with empty | positive
  · simp [firstBytes, Chunk.data, Chunk.bytes, empty]
  · simp [firstBytes, Chunk.data, Nat.ne_of_gt positive]

/-- The first `len` characters at the place. -/
def read (s : Lending Tid) (place : Place Tid) (len : Nat) : Option (List Byte) :=
  firstBytes (s.strings place) len

/-- What `sendinLoop` receives when the functor is run. -/
def receipt (s : Lending Tid) : Handed Tid → List Receipt
  | .sendinLoop place len given => [⟨given, s.read place len⟩]
  | .other => []

/-- The `sendinLoop` the next functor of the batch calls. -/
def received (s : Lending Tid) : EventLoop.Action Tid (Handed Tid) → List Receipt
  | .runNext => (s.loop.queue.next?.map fun task => s.receipt task.functor).getD []
  | _ => []

section Step

variable [DecidableEq Tid]

def step (s : Lending Tid) : Action Tid → Option (Lending Tid)
  | .send place =>
      (s.strings place).bind fun text =>
        if s.isConnect then
          (s.loop.step (.runinLoop (some place.owner)
            (.sendinLoop place text.len text.data))).map fun loop => { s with loop := loop }
        else
          some s
  | .assign place text =>
      if (s.loop.callPc (some place.owner)).isIdle then
        some { s with strings := Function.update s.strings place text }
      else none
  | .setState isConnect => some { s with isConnect := isConnect }
  | .event action =>
      if submitsSend action then none
      else (s.loop.step action).map fun loop =>
        { s with loop := loop, receipts := s.receipts ++ s.received action }

/-- Every interleaving of the loop thread with the threads that send. -/
def interleaving : Machine (Lending Tid) (Action Tid) := ⟨step⟩

end Step

/-- Every `sendinLoop` received what the string held when `send` was called. -/
def Faithful (s : Lending Tid) : Prop :=
  ∀ receipt ∈ s.receipts, receipt.received = some receipt.given

instance (s : Lending Tid) : Decidable s.Faithful :=
  inferInstanceAs (Decidable (∀ receipt ∈ s.receipts, _))

/-- How many bytes the queued functors read that are bound to the place. -/
def lent [DecidableEq Tid] (s : Lending Tid) (place : Place Tid) : List Nat :=
  s.loop.queue.contents.filterMap fun task => task.functor.lent place

/-- The owner leaves the bytes alone that queued functors will read.  The functor of an empty
string reads none. -/
def LeavesLent [DecidableEq Tid] (s : Lending Tid) : Action Tid → Prop
  | .assign place text =>
      ∀ len ∈ s.lent place, firstBytes text len = s.read place len
  | .send _ | .setState _ | .event _ => True

instance [DecidableEq Tid] (s : Lending Tid) : DecidablePred s.LeavesLent
  | .assign _ _ => inferInstanceAs (Decidable (∀ len ∈ _, _))
  | .send _ | .setState _ | .event _ => isTrue trivial

/-! ## Runs in which the owners wait -/

/-- A queued functor finds what it was given, as does one about to be queued, which is
in the hands of the owner of the string. -/
structure Honest (s : Lending Tid) : Prop where
  faithful : s.Faithful
  queued : ∀ task ∈ s.loop.queue.contents, ∀ place len given,
    task.functor = .sendinLoop place len given → s.read place len = some given
  queueing : ∀ caller place len given,
    s.loop.callPc caller = .queueing (.sendinLoop place len given) →
      caller = some place.owner ∧ s.read place len = some given

theorem make_honest (strings : Place Tid → Option Chunk) : Honest (make strings) :=
  ⟨by simp [make, Faithful], by simp [make, EventLoop.make, TaskQueue.empty, TaskQueue.contents,
    TaskQueue.remaining], by simp [make, EventLoop.make]⟩

variable [DecidableEq Tid]

/-- A step of the loop that submits nothing but what the strings hold. -/
theorem Honest.advance {s : Lending Tid} (honest : Honest s)
    {loop : EventLoop Tid (Handed Tid)} {action : EventLoop.Action Tid (Handed Tid)}
    (stepped : s.loop.step action = some loop)
    (submitted : ∀ caller place len given,
      action = .queueinLoop caller (.sendinLoop place len given) ∨
        action = .runinLoop caller (.sendinLoop place len given) →
      caller = some place.owner ∧ s.read place len = some given)
    {receipts : List Receipt}
    (faithful : ∀ receipt ∈ receipts, receipt.received = some receipt.given) :
    Honest { s with loop := loop, receipts := s.receipts ++ receipts } := by
  refine ⟨?_, ?_, ?_⟩
  · intro receipt membership
    rcases List.mem_append.mp membership with before | now
    · exact honest.faithful receipt before
    · exact faithful receipt now
  · intro task membership place len given functor
    rcases EventLoop.step_contents stepped membership with before | pushed
    · exact honest.queued task before place len given functor
    · exact (honest.queueing task.source place len given (functor ▸ pushed)).2
  · intro caller place len given between
    rcases EventLoop.step_queueing stepped between with before | called
    · exact honest.queueing caller place len given before
    · exact submitted caller place len given called

omit [DecidableEq Tid] in
theorem Honest.received {s : Lending Tid} (honest : Honest s)
    (action : EventLoop.Action Tid (Handed Tid)) :
    ∀ receipt ∈ s.received action, receipt.received = some receipt.given := by
  intro receipt membership
  cases action with
  | runNext =>
      cases found : s.loop.queue.next? with
      | none => simp [Lending.received, found] at membership
      | some task =>
          have queued := TaskQueue.mem_contents_of_next found
          cases functor : task.functor with
          | sendinLoop place len given =>
              have reads := honest.queued task queued place len given functor
              simp only [Lending.received, found, functor, Lending.receipt, Option.map_some,
                Option.getD_some, List.mem_singleton] at membership
              rw [membership]
              exact reads
          | other => simp [Lending.received, found, functor, Lending.receipt] at membership
  | _ => simp [Lending.received] at membership

theorem Honest.step {s t : Lending Tid} {action : Action Tid} (honest : Honest s)
    (leaves : s.LeavesLent action) (stepped : s.step action = some t) : Honest t := by
  cases action with
  | send place =>
      simp only [Lending.step, Option.bind_eq_some_iff] at stepped
      obtain ⟨text, found, sent⟩ := stepped
      split at sent
      · obtain ⟨loop, submitted, rfl⟩ := Option.map_eq_some_iff.mp sent
        have same := honest.advance submitted ?_ (List.forall_mem_nil _)
        · simpa using same
        · rintro caller other len given (queued | called)
          · cases queued
          · cases called
            exact ⟨rfl, by rw [read, found, firstBytes_data]⟩
      · cases sent
        exact honest
  | assign place text =>
      simp only [Lending.step, Option.ite_none_right_eq_some, Option.some.injEq] at stepped
      obtain ⟨idle, rfl⟩ := stepped
      refine ⟨honest.faithful, ?_, ?_⟩
      · intro task membership other len given functor
        have before := honest.queued task membership other len given functor
        by_cases same : other = place
        · subst same
          have bound : len ∈ s.lent other :=
            List.mem_filterMap.mpr ⟨task, membership, by simp [functor, Handed.lent]⟩
          have left := leaves len bound
          simpa [read] using left.trans before
        · simpa [read, same] using before
      · intro caller other len given between
        obtain ⟨owner, before⟩ := honest.queueing caller other len given between
        refine ⟨owner, ?_⟩
        by_cases same : other = place
        · subst same
          rw [← owner, between] at idle
          cases idle
        · simpa [read, same] using before
  | setState isConnect =>
      cases stepped
      exact ⟨honest.faithful, honest.queued, honest.queueing⟩
  | event action =>
      simp only [Lending.step, Option.ite_none_left_eq_some, Option.map_eq_some_iff] at stepped
      obtain ⟨nothing, loop, event, rfl⟩ := stepped
      refine honest.advance event ?_ ?_
      · rintro caller place len given (rfl | rfl)
        · exact absurd rfl nothing
        · exact absurd rfl nothing
      · exact honest.received action

/-- In every run whose threads leave the bytes alone that queued functors will read,
every `sendinLoop` receives what was given to `send`. -/
theorem sends_what_was_given (strings : Place Tid → Option Chunk) (actions : List (Action Tid))
    (leaves : interleaving.Guarded LeavesLent (make strings) actions) :
    interleaving.Always Faithful (make strings) actions :=
  Machine.always_of_guarded
    (fun _ _ _ honest leaves stepped => Honest.step honest leaves stepped)
    (fun _ honest => Honest.faithful honest) (make_honest strings) leaves

/-! ## A string that is destroyed and one that is overwritten -/

/-- Every thread has strings that hold the one byte `a`. -/
def letters : Place Unit → Option Chunk := fun _ => some (.single 97)

def zero : Place Unit := ⟨(), 0⟩

/-- A thread sends a string while the loop polls. -/
def sending : List (Action Unit) :=
  [.event .loop, .event .resetQuit, .event .testQuit, .send zero, .event (.push (some ())),
    .event (.notify (some ()))]

def running : List (Action Unit) :=
  [.event (.epoll true), .event .handelwakeupRead, .event .beginPendFunc, .event .swap,
    .event .runNext]

/-- The functor reads from a string that is gone, or reads what has been written over
it. -/
theorem queued_send_reads_later :
    ¬ interleaving.Always Faithful (make letters) (sending ++ .assign zero none :: running) ∧
    (interleaving.exec (make letters) (sending ++ .assign zero none :: running)).map
      (fun s => s.receipts) = some [⟨[97], none⟩] ∧
    (interleaving.exec (make letters)
        (sending ++ .assign zero (some (.single 98)) :: running)).map
      (fun s => s.receipts) = some [⟨[97], some [98]⟩] := by
  decide +kernel

/-- The thread adds to the string before the functor runs, and destroys it after. -/
theorem sends_what_was_given_kept :
    interleaving.Always Faithful (make letters)
      (sending ++ .assign zero (some ⟨fun position => if position = 0 then 97 else 98, 2,
        by decide⟩) :: running ++ [.assign zero none]) :=
  sends_what_was_given letters _ (by decide +kernel)

end Lending

end Lucky
