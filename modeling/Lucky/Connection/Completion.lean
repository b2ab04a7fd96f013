import Lucky.Connection.Accounting
import Lucky.Connection.Stream

/-!
# Completion notices

Runs of `sendinLoop` and `handleWrite` with `writeCompleteCallback_` set.  A byte
is outstanding from the time it is passed to `sendinLoop` until the kernel
accepts it.  `sendinLoop` and `handleWrite` announce completion when no byte waits
in `outputBuffer_`; that is when none is outstanding, unless a direct write that
was short has dropped some.
-/

namespace Lucky

open Systems

/-- How often `writeCompleteCallback_` has been queued. -/
def completions (calls : List Call) : Nat :=
  calls.count (.queueinLoop .writeCompleteCallback)

@[simp]
theorem completions_append (first second : List Call) :
    completions (first ++ second) = completions first + completions second :=
  List.count_append

namespace Session

variable {Ptr : Type}

theorem accepted_completion (s : Session Ptr) : accepted s.completion = [] := by
  unfold completion
  split <;> rfl

theorem accepted_drainedCalls (s : Session Ptr) : accepted s.drainedCalls = [] := by
  rw [drainedCalls, accepted_append, accepted_completion]
  split <;> rfl

theorem accepted_buffered (s : Session Ptr) (offset : Int) (count len : Nat) :
    accepted (s.marks count ++ appends offset count len) = [] := by
  unfold marks appends
  split <;> split <;> rfl

theorem completions_buffered (s : Session Ptr) (offset : Int) (count len : Nat) :
    completions (s.marks count ++ appends offset count len) = 0 := by
  unfold marks appends
  split <;> split <;> rfl

theorem accepted_directCalls {s : Session Ptr} {data : Chunk} {answer : WriteResult}
    (valid : answer.Valid data.len) :
    (accepted (s.directCalls data answer)).length =
      if s.Direct then answer.returned.toNat else 0 := by
  unfold directCalls
  split
  · have counted : answer.returned.toNat ≤ data.len := by
      rcases valid with failed | ⟨_, bounded⟩ <;> omega
    have later : accepted (if 0 < answer.returned ∧ answer.returned = data.len
        then s.completion else []) = [] := by
      split
      · exact accepted_completion s
      · rfl
    rw [← List.singleton_append, accepted_append, later, List.append_nil]
    simpa [accepted, Call.accepted, Chunk.length_data] using counted
  · rfl

theorem completions_directCalls {s : Session Ptr} {data : Chunk} {answer : WriteResult}
    (set : s.connection.writeCompleteCallback = true) :
    completions (s.directCalls data answer) =
      if s.Direct ∧ 0 < answer.returned ∧ answer.returned = data.len then 1 else 0 := by
  by_cases direct : s.Direct
  · by_cases all : 0 < answer.returned ∧ answer.returned = data.len
    · rw [directCalls, if_pos direct, if_pos all, if_pos ⟨direct, all⟩, completion, if_pos set]
      rfl
    · rw [directCalls, if_pos direct, if_neg all, if_neg (fun both => all both.2)]
      rfl
  · simp [directCalls, direct, completions]

theorem completions_drainedCalls {s : Session Ptr}
    (set : s.connection.writeCompleteCallback = true) : completions s.drainedCalls = 1 := by
  rw [drainedCalls, completion, if_pos set, completions_append]
  split <;> rfl

end Session

namespace Outgoing

variable {Ptr : Type}

def taken (state : Outgoing Ptr) : Nat := (accepted state.session.calls).length

/-- The bytes passed to `sendinLoop` less the bytes the kernel accepted. -/
def outstanding (backlog : List Byte) (state : Outgoing Ptr) : Nat :=
  backlog.length + state.passed.length - state.taken

/-- From `state` to `next`, completion is announced once if the kernel accepted
something and nothing is outstanding any more, and not at all otherwise. -/
def Announces (backlog : List Byte) (state next : Outgoing Ptr) : Prop :=
  completions next.session.calls = completions state.session.calls +
    if next.outstanding backlog = 0 ∧ state.taken < next.taken then 1 else 0

instance (backlog : List Byte) (state next : Outgoing Ptr) :
    Decidable (Announces backlog state next) :=
  inferInstanceAs (Decidable (_ = _))

/-- Every byte not accepted by the kernel waits in `outputBuffer_`. -/
def NoneLost (backlog : List Byte) (state : Outgoing Ptr) : Prop :=
  state.taken + state.session.unread = backlog.length + state.passed.length

instance (backlog : List Byte) (state : Outgoing Ptr) : Decidable (state.NoneLost backlog) :=
  inferInstanceAs (Decidable (_ = _))

/-- A write that takes all bytes at hand finds that none has been lost before. -/
def CompletesWhole (backlog : List Byte) (state : Outgoing Ptr) : Transmission → Prop
  | .sendinLoop data answer => state.session.Direct → 0 < answer.returned →
      answer.returned = data.len → state.NoneLost backlog
  | .handleWrite answer => state.session.isWriting = true → state.session.Drains answer →
      state.NoneLost backlog

instance (backlog : List Byte) (state : Outgoing Ptr) :
    DecidablePred (state.CompletesWhole backlog)
  | .sendinLoop _ _ => inferInstanceAs (Decidable (_ → _ → _ → _))
  | .handleWrite _ => inferInstanceAs (Decidable (_ → _ → _))

/-- After the step some bytes neither wait nor have been accepted. -/
def Loses (state : Outgoing Ptr) : Transmission → Prop
  | .sendinLoop data answer => state.session.Loses data answer
  | .handleWrite _ => False

variable [DecidableEq Ptr]

/-- Every completion of the step is announced. -/
def AnnouncesCompletion (backlog : List Byte) (state : Outgoing Ptr)
    (action : Transmission) : Prop :=
  ∀ next ∈ transmissions.step state action, Announces backlog state next

instance (backlog : List Byte) (state : Outgoing Ptr) (action : Transmission) :
    Decidable (state.AnnouncesCompletion backlog action) :=
  inferInstanceAs (Decidable (∀ next ∈ _, _))

/-- A connection with the callback, in a run: no byte is counted twice. -/
structure Counted (backlog : List Byte) (state : Outgoing Ptr) : Prop where
  callback : state.session.connection.writeCompleteCallback = true
  wellFormed : state.session.connection.outputBuffer.WellFormed
  bounded : state.taken + state.session.unread ≤ backlog.length + state.passed.length

theorem Counted.sendinLoop {backlog : List Byte} {state next : Outgoing Ptr} {data : Chunk}
    {answer : WriteResult} (counted : state.Counted backlog)
    (stepped : transmissions.step state (.sendinLoop data answer) = some next) :
    next.Counted backlog ∧
      (Announces backlog state next ↔ state.CompletesWhole backlog (.sendinLoop data answer)) ∧
      (next.NoneLost backlog ↔
        state.NoneLost backlog ∧ ¬ state.Loses (.sendinLoop data answer)) := by
  obtain ⟨⟨valid, _⟩, returned, passed⟩ := step_sendinLoop stepped
  have sent := Session.sendinLoop_sent counted.wellFormed valid returned
  have bounded := counted.bounded
  obtain ⟨offset, calls⟩ := sent.calls
  obtain ⟨most, whole⟩ := Session.taken_add_kept (s := state.session) valid
  have unread := sent.unread
  have length : next.passed.length = state.passed.length + data.len := by
    rw [passed, List.length_append, Chunk.length_data]
  have taken : next.taken = state.taken + state.session.taken answer := by
    rw [Outgoing.taken, calls, accepted_append, accepted_append, Session.accepted_buffered,
      List.append_nil, List.length_append, Session.accepted_directCalls valid]
    rfl
  refine ⟨⟨?_, sent.wellFormed, by omega⟩, ?_, ?_⟩
  · rw [sent.frame]
    exact counted.callback
  · rw [Announces, calls, completions_append, completions_append, Session.completions_buffered,
      Session.completions_directCalls counted.callback, outstanding, length, taken]
    simp only [CompletesWhole, NoneLost]
    by_cases direct : state.session.Direct
    · have empty := (Session.direct_unread direct).2
      have took : state.session.taken answer = answer.returned.toNat := if_pos direct
      simp only [took, direct, true_and, true_imp_iff]
      by_cases all : 0 < answer.returned ∧ answer.returned = data.len
      · have count : answer.returned.toNat = data.len := by omega
        rw [if_pos all, count]
        constructor
        · intro once _ _
          split at once <;> omega
        · intro noneLost
          have sum := noneLost all.1 all.2
          rw [if_pos (by omega)]
      · have partly : ¬ (backlog.length + (state.passed.length + data.len) -
            (state.taken + answer.returned.toNat) = 0 ∧
            state.taken < state.taken + answer.returned.toNat) := by
          omega
        rw [if_neg all, if_neg partly]
        exact ⟨fun _ positive complete => absurd ⟨positive, complete⟩ all, fun _ => rfl⟩
    · simp [Session.taken, direct]
  · rw [Loses, ← whole]
    unfold NoneLost
    omega

theorem Counted.handleWrite {backlog : List Byte} {state next : Outgoing Ptr}
    {answer : WriteResult} (counted : state.Counted backlog)
    (stepped : transmissions.step state (.handleWrite answer) = some next) :
    next.Counted backlog ∧
      (Announces backlog state next ↔ state.CompletesWhole backlog (.handleWrite answer)) ∧
      (next.NoneLost backlog ↔ state.NoneLost backlog) := by
  obtain ⟨⟨valid, _⟩, returned, passed⟩ := step_handleWrite stepped
  have bounded := counted.bounded
  cases writing : state.session.isWriting with
  | false =>
      have same : next = state := by
        cases next
        simp only at returned passed
        rw [Session.handleWrite_idle writing returned, passed]
      subst same
      refine ⟨counted, ?_, Iff.rfl⟩
      simp [Announces, CompletesWhole, writing]
  | true =>
      have flushed := Session.handleWrite_flushed counted.wellFormed writing returned
      have unread := flushed.unread
      have count : answer.returned.toNat ≤ state.session.unread := by
        rcases valid with failed | ⟨_, most⟩
        · omega
        · exact Int.toNat_le.mpr most
      have taken : next.taken = state.taken + answer.returned.toNat := by
        have later : accepted (if state.session.Drains answer
            then state.session.drainedCalls else []) = [] := by
          split
          · exact state.session.accepted_drainedCalls
          · rfl
        rw [Session.unread_eq_length counted.wellFormed] at count
        rw [Outgoing.taken, flushed.calls, ← List.singleton_append, accepted_append,
          accepted_append, later, List.append_nil, List.length_append]
        simpa [accepted, Call.accepted, Outgoing.taken] using count
      have announced : completions next.session.calls = completions state.session.calls +
          if state.session.Drains answer then 1 else 0 := by
        rw [flushed.calls, ← List.singleton_append, completions_append, completions_append]
        split
        · rw [Session.completions_drainedCalls counted.callback]
          rfl
        · rfl
      refine ⟨⟨?_, flushed.wellFormed, by rw [passed]; omega⟩, ?_, ?_⟩
      · rw [flushed.frame]
        exact counted.callback
      · rw [Announces, announced, outstanding, passed, taken]
        simp only [CompletesWhole, NoneLost, writing, true_imp_iff]
        by_cases drains : state.session.Drains answer
        · have positive := drains.1
          have all := drains.2
          simp only [drains, if_true, true_imp_iff]
          constructor
          · intro once
            split at once <;> omega
          · intro noneLost
            rw [if_pos (by omega)]
        · have waits : answer.returned ≤ 0 ∨ answer.returned.toNat < state.session.unread := by
            unfold Session.Drains at drains
            omega
          simp only [drains, if_false, false_imp_iff, iff_true]
          rw [if_neg (by omega)]
      · unfold NoneLost
        rw [passed]
        omega

/-- One step announces its completion exactly when it takes all bytes at hand
only while none has been lost; a byte is lost in the losing steps only. -/
theorem Counted.step {backlog : List Byte} {state next : Outgoing Ptr} {action : Transmission}
    (counted : state.Counted backlog) (stepped : transmissions.step state action = some next) :
    next.Counted backlog ∧
      (state.AnnouncesCompletion backlog action ↔ state.CompletesWhole backlog action) ∧
      (next.NoneLost backlog ↔ state.NoneLost backlog ∧ ¬ state.Loses action) := by
  have only : state.AnnouncesCompletion backlog action ↔ Announces backlog state next := by
    simp [AnnouncesCompletion, stepped]
  rw [only]
  cases action with
  | sendinLoop data answer => exact counted.sendinLoop stepped
  | handleWrite answer =>
      obtain ⟨after, announces, lost⟩ := counted.handleWrite stepped
      exact ⟨after, announces, lost.trans (and_iff_left (fun never : False => never)).symm⟩

/-- No byte has been lost in a run exactly when no step of the run loses any. -/
theorem Counted.noneLost_iff {backlog : List Byte} {start final : Outgoing Ptr}
    {actions : List Transmission} (counted : start.Counted backlog)
    (run : transmissions.exec start actions = some final) :
    final.NoneLost backlog ↔ start.NoneLost backlog ∧
      transmissions.Guarded (fun state action => ¬ state.Loses action) start actions := by
  induction actions generalizing start with
  | nil =>
      rw [← Option.some.inj run]
      exact (and_iff_left trivial).symm
  | cons action rest inductionHypothesis =>
      rcases (transmissions.exec_cons_eq_some).mp run with ⟨next, stepped, restRun⟩
      obtain ⟨after, _, lost⟩ := counted.step stepped
      have only : transmissions.Guarded (fun state action => ¬ state.Loses action) start
          (action :: rest) ↔ ¬ start.Loses action ∧
            transmissions.Guarded (fun state action => ¬ state.Loses action) next rest := by
        simp [Machine.Guarded, stepped]
      rw [inductionHypothesis after restRun, lost, only, and_assoc]

/-- From any connection with the callback set, every completion of a run is
announced, and nothing else, exactly when no write of the run takes all bytes at
hand after bytes have been lost. -/
theorem announces_completion_iff_completesWhole (session : Session Ptr)
    (set : session.connection.writeCompleteCallback = true)
    (wellFormed : session.connection.outputBuffer.WellFormed) (actions : List Transmission) :
    transmissions.Guarded (AnnouncesCompletion session.connection.outputBuffer.readable)
        ⟨{ session with calls := [] }, []⟩ actions ↔
      transmissions.Guarded (CompletesWhole session.connection.outputBuffer.readable)
        ⟨{ session with calls := [] }, []⟩ actions := by
  refine Machine.guarded_iff_guarded (Counted session.connection.outputBuffer.readable)
    (fun _ _ _ counted stepped => (counted.step stepped).1)
    (fun _ _ _ counted stepped => (counted.step stepped).2.1) ⟨set, wellFormed, ?_⟩
  simp [taken, accepted, Session.unread, wellFormed.length_readable]

/-- The kernel takes one byte of `ab` and the other is lost; completion is then
announced for two more bytes while one is outstanding. -/
theorem lost_byte_breaks_completion :
    ¬ transmissions.Guarded (AnnouncesCompletion connected.connection.outputBuffer.readable)
        ⟨{ connected with calls := [] }, []⟩
        [.sendinLoop ab ⟨1, 0⟩, .sendinLoop ab ⟨2, 0⟩] := by
  decide +kernel

/-- Full, short, blocked and buffered sends, drained by two writes. -/
theorem announces_completion_iff_completesWhole_drained :
    transmissions.Guarded (AnnouncesCompletion connected.connection.outputBuffer.readable)
        ⟨{ connected with calls := [] }, []⟩
        [.sendinLoop ab ⟨2, 0⟩, .sendinLoop ab ⟨1, EWOULDBLOCK⟩, .sendinLoop ab ⟨0, 0⟩,
          .handleWrite ⟨2, 0⟩, .handleWrite ⟨1, 0⟩] :=
  (announces_completion_iff_completesWhole connected rfl Buffer.initial_wellFormed.1 _).mpr
    (by decide +kernel)

end Outgoing

end Lucky
