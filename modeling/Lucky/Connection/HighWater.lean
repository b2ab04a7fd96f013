import Lucky.Connection.Accounting
import Lucky.Connection.Stream

/-!
# High-water notifications

Runs of `sendinLoop` and `handleWrite` on one connection in any state, under any
answers of `::write`.  `highWaterMarkCallback_` is queued exactly when the size
of `outputBuffer_` crosses `highWaterMark_` upwards.
-/

namespace Lucky

open Systems

def Call.notified : Call → List Nat
  | .queueinLoop (.highWaterMarkCallback size) => [size]
  | _ => []

/-- The arguments of the high-water notifications queued so far. -/
def notified (calls : List Call) : List Nat := calls.flatMap Call.notified

@[simp]
theorem notified_append (first second : List Call) :
    notified (first ++ second) = notified first ++ notified second :=
  List.flatMap_append

namespace Session

variable {Ptr : Type}

/-- What an upward crossing of the mark from `s` to `t` announces. -/
def crossing (mark : Nat) (s t : Session Ptr) : List Nat :=
  if s.unread < mark ∧ mark ≤ t.unread then [t.unread] else []

/-- A connection whose `highWaterMarkCallback_` has been set with the mark. -/
structure Watched (mark : Nat) (s : Session Ptr) : Prop where
  wellFormed : s.connection.outputBuffer.WellFormed
  mark : s.connection.highWaterMark = mark
  callback : s.connection.highWaterMarkCallback = true

theorem notified_directCalls (s : Session Ptr) (data : Chunk) (answer : WriteResult) :
    notified (s.directCalls data answer) = [] := by
  unfold directCalls completion
  split
  · split
    · split <;> rfl
    · rfl
  · rfl

theorem notified_drainedCalls (s : Session Ptr) : notified s.drainedCalls = [] := by
  unfold drainedCalls completion
  split <;> split <;> rfl

theorem notified_appends (offset : Int) (count len : Nat) :
    notified (appends offset count len) = [] := by
  unfold appends
  split <;> rfl

theorem notified_marks {mark count : Nat} {s t : Session Ptr} (watched : s.Watched mark)
    (unread : t.unread = s.unread + count) :
    notified (s.marks count) = crossing mark s t := by
  unfold marks crossing
  rw [watched.mark, watched.callback, unread]
  by_cases crosses : s.unread < mark ∧ mark ≤ s.unread + count
  · have positive : 0 < count := by omega
    rw [if_pos crosses, if_pos ⟨positive, crosses.1, crosses.2, rfl⟩]
    rfl
  · rw [if_neg crosses, if_neg (fun all => crosses ⟨all.2.1, all.2.2.1⟩)]
    rfl

variable [DecidableEq Ptr]

/-- A step is a call that returns, under an answer `::write` can give. -/
def transfers : Machine (Session Ptr) Transmission where
  step s
    | .sendinLoop data answer =>
        if answer.Valid data.len then (s.sendinLoop data answer).toOption else none
    | .handleWrite answer =>
        if answer.Valid s.unread then (s.handleWrite answer).toOption else none

theorem Watched.sendinLoop {mark : Nat} {s t : Session Ptr} {data : Chunk}
    {answer : WriteResult} (watched : s.Watched mark) (valid : answer.Valid data.len)
    (returned : s.sendinLoop data answer = .ok t) :
    t.Watched mark ∧ notified t.calls = notified s.calls ++ crossing mark s t := by
  have sent := sendinLoop_sent watched.wellFormed valid returned
  constructor
  · refine ⟨sent.wellFormed, ?_, ?_⟩
    · rw [sent.frame]
      exact watched.mark
    · rw [sent.frame]
      exact watched.callback
  · obtain ⟨offset, calls⟩ := sent.calls
    rw [calls, notified_append, notified_append, notified_append, notified_directCalls,
      notified_appends, notified_marks watched sent.unread, List.nil_append, List.append_nil]

theorem Watched.handleWrite {mark : Nat} {s t : Session Ptr} {answer : WriteResult}
    (watched : s.Watched mark) (returned : s.handleWrite answer = .ok t) :
    t.Watched mark ∧ notified t.calls = notified s.calls ++ crossing mark s t := by
  have downwards : t.unread ≤ s.unread → crossing mark s t = [] := by
    intro shrinks
    exact if_neg (by omega)
  cases writing : s.isWriting with
  | false =>
      have same := handleWrite_idle writing returned
      subst same
      exact ⟨watched, by rw [downwards (Nat.le_refl _), List.append_nil]⟩
  | true =>
      have flushed := handleWrite_flushed watched.wellFormed writing returned
      constructor
      · refine ⟨flushed.wellFormed, ?_, ?_⟩
        · rw [flushed.frame]
          exact watched.mark
        · rw [flushed.frame]
          exact watched.callback
      · have silent : notified (.write s.connection.outputBuffer.readable answer ::
            if s.Drains answer then s.drainedCalls else []) = [] := by
          split
          · exact notified_drainedCalls s
          · rfl
        rw [flushed.calls, notified_append, silent, downwards]
        rw [flushed.unread]
        exact Nat.sub_le _ _

/-- One step queues what the crossing it makes announces. -/
theorem Watched.step {mark : Nat} {s t : Session Ptr} {action : Transmission}
    (watched : s.Watched mark) (stepped : transfers.step s action = some t) :
    t.Watched mark ∧ notified t.calls = notified s.calls ++ crossing mark s t := by
  cases action with
  | sendinLoop data answer =>
      simp only [transfers] at stepped
      split at stepped
      next valid => exact watched.sendinLoop valid (toOption_eq_some.mp stepped)
      next => cases stepped
  | handleWrite answer =>
      simp only [transfers] at stepped
      split at stepped
      next => exact watched.handleWrite (toOption_eq_some.mp stepped)
      next => cases stepped

theorem Watched.exec {mark : Nat} {s t : Session Ptr} {actions : List Transmission}
    (watched : s.Watched mark) (run : transfers.exec s actions = some t) : t.Watched mark :=
  Machine.exec_invariant (fun _ _ _ holds stepped => (holds.step stepped).1) watched run

/-- A step that queues a notification. -/
def Notifies (s : Session Ptr) (action : Transmission) (t : Session Ptr) : Prop :=
  transfers.step s action = some t ∧ notified t.calls ≠ notified s.calls

theorem Watched.notifies_iff {mark : Nat} {s t : Session Ptr} {action : Transmission}
    (watched : s.Watched mark) (stepped : transfers.step s action = some t) :
    s.Notifies action t ↔ s.unread < mark ∧ mark ≤ t.unread := by
  unfold Notifies
  rw [(watched.step stepped).2, crossing]
  by_cases crosses : s.unread < mark ∧ mark ≤ t.unread
  · simp [crosses, stepped]
  · simp [crosses]

/-- In every run from `start`: a step notifies exactly when it crosses the mark
upwards, with the new size; the size is below the mark right before a
notification, so it has been below it since the one before; and whenever it is at
or above the mark after having been below, a notification has been queued since
it was last below. -/
structure NotifiesCrossings (mark : Nat) (start : Session Ptr) : Prop where
  atCrossings : ∀ actions s action t, transfers.exec start actions = some s →
    transfers.step s action = some t →
    notified t.calls = notified s.calls ++ crossing mark s t
  between : ∀ actions s action t between u later v, transfers.exec start actions = some s →
    s.Notifies action t → transfers.exec t between = some u → u.Notifies later v →
    u.unread < mark
  since : ∀ actions s more t, transfers.exec start actions = some s → s.unread < mark →
    transfers.exec s more = some t → mark ≤ t.unread →
    ∃ before action after u v, more = before ++ action :: after ∧
      transfers.exec s before = some u ∧ u.Notifies action v ∧ u.unread < mark ∧
      transfers.Always (fun later => mark ≤ later.unread) v after

theorem notifies_upward_crossings {mark : Nat} {start : Session Ptr}
    (watched : start.Watched mark) : start.NotifiesCrossings mark := by
  constructor
  · intro actions s action t run stepped
    exact ((watched.exec run).step stepped).2
  · intro actions s action t between u later v run first middle second
    have reached := ((watched.exec run).step first.1).1.exec middle
    exact ((reached.notifies_iff second.1).mp second).1
  · intro actions s more t run below rest above
    have reached := watched.exec run
    rcases Machine.exec_entered (fun later : Session Ptr => mark ≤ later.unread) rest above with
      always | ⟨before, action, after, u, v, split, runUp, stepped, outside, always⟩
    · exact absurd always.first (Nat.not_le.mpr below)
    · have entered : mark ≤ v.unread := always.first
      have under : u.unread < mark := by omega
      exact ⟨before, action, after, u, v, split, runUp,
        ((reached.exec runUp).notifies_iff stepped).mpr ⟨under, entered⟩, under, always⟩

/-- A connection with a mark of 2 bytes. -/
def marked : Session Unit :=
  Session.make ()
    { Connection.make 5 false true with state := .kConnected, highWaterMark := 2 } Epoller.make

/-- The size goes from 0 to 2, 4, 1 and 3. -/
example : (transfers.exec marked
    [.sendinLoop Outgoing.ab ⟨0, 0⟩, .sendinLoop Outgoing.ab ⟨0, 0⟩,
    .handleWrite ⟨3, 0⟩, .sendinLoop Outgoing.ab ⟨0, 0⟩]).map (fun s => notified s.calls) =
      some [2, 3] := by
  decide +kernel

theorem notifies_upward_crossings_marked : marked.NotifiesCrossings 2 :=
  notifies_upward_crossings ⟨Buffer.initial_wellFormed.1, rfl, rfl⟩

end Session

end Lucky
