import Lucky.Connection.Accounting
import Lucky.Systems.Machine

/-!
# Write interest and graceful close

Everything the loop thread does with one connection, from its construction on:
`connectEstablished` once, then any of the other functions in any order.  While
the connection is open, `filed_` is interested in writing exactly when
`outputBuffer_` holds bytes; the write side is shut down only while it holds none,
and has been once a half closed connection has sent its last byte.
-/

namespace Lucky

open Systems

/-- The size of `outputBuffer_` after the call.  A direct `::write` finds it empty. -/
def Call.buffered (size : Nat) : Call → Nat
  | .append _ count _ => size + count
  | .write _ answer => size - answer.returned.toNat
  | _ => size

def buffered (size : Nat) (calls : List Call) : Nat := calls.foldl Call.buffered size

/-- Replayed from `size` bytes in `outputBuffer_`, the calls shut down the write
side only while it is empty. -/
def ShutsEmpty : Nat → List Call → Prop
  | _, [] => True
  | size, call :: rest =>
      (call = .shutdownWrite → size = 0) ∧ ShutsEmpty (call.buffered size) rest

@[simp]
theorem buffered_append (size : Nat) (first second : List Call) :
    buffered size (first ++ second) = buffered (buffered size first) second :=
  List.foldl_append

theorem shutsEmpty_append (size : Nat) (first second : List Call) :
    ShutsEmpty size (first ++ second) ↔
      ShutsEmpty size first ∧ ShutsEmpty (buffered size first) second := by
  induction first generalizing size with
  | nil => simp [ShutsEmpty, buffered]
  | cons call rest inductionHypothesis =>
      rw [List.cons_append, ShutsEmpty, ShutsEmpty, inductionHypothesis, and_assoc]
      rfl

theorem shutsEmpty_of_not_mem {calls : List Call} (never : .shutdownWrite ∉ calls) (size : Nat) :
    ShutsEmpty size calls := by
  induction calls generalizing size with
  | nil => trivial
  | cons call rest inductionHypothesis =>
      rw [List.mem_cons, not_or] at never
      exact ⟨fun shuts => absurd shuts.symm never.1, inductionHypothesis never.2 _⟩

/-- `::write` answers a count up to the length, or `-1`. -/
def UserCall.Valid : UserCall → Prop
  | .send data answer => answer.Valid data.len
  | .shutdown | .retrieve _ => True

instance : DecidablePred UserCall.Valid
  | .send _ _ => inferInstanceAs (Decidable (WriteResult.Valid _ _))
  | .shutdown | .retrieve _ => isTrue trivial

namespace Session

variable {Ptr : Type}

theorem buffered_completion (s : Session Ptr) (size : Nat) :
    buffered size s.completion = size := by
  unfold completion
  split <;> rfl

theorem not_mem_completion (s : Session Ptr) : .shutdownWrite ∉ s.completion := by
  unfold completion
  split <;> simp

theorem buffered_drainedCalls (s : Session Ptr) (size : Nat) :
    buffered size s.drainedCalls = size := by
  rw [drainedCalls, buffered_append, buffered_completion]
  split <;> rfl

theorem shutsEmpty_drainedCalls (s : Session Ptr) {size : Nat} (empty : size = 0) :
    ShutsEmpty size s.drainedCalls := by
  rw [drainedCalls, shutsEmpty_append, buffered_completion]
  refine ⟨shutsEmpty_of_not_mem s.not_mem_completion size, ?_⟩
  split
  · exact ⟨fun _ => empty, trivial⟩
  · trivial

theorem mem_drainedCalls (s : Session Ptr) (disconnecting : s.connection.state = .kDisconnecting) :
    .shutdownWrite ∈ s.drainedCalls := by
  simp [drainedCalls, disconnecting]

theorem buffered_directCalls (s : Session Ptr) (data : Chunk) (answer : WriteResult)
    (size : Nat) : buffered size (s.directCalls data answer) = size - s.taken answer := by
  unfold directCalls taken
  split
  · rw [← List.singleton_append, buffered_append]
    split
    · exact s.buffered_completion _
    · rfl
  · rfl

theorem not_mem_directCalls (s : Session Ptr) (data : Chunk) (answer : WriteResult) :
    .shutdownWrite ∉ s.directCalls data answer := by
  unfold directCalls
  split
  · split
    · simp [s.not_mem_completion]
    · simp
  · simp

theorem buffered_appending (s : Session Ptr) (offset : Int) (count len size : Nat) :
    buffered size (s.marks count ++ appends offset count len) = size + count := by
  have marked : buffered size (s.marks count) = size := by
    unfold marks
    split <;> rfl
  rw [buffered_append, marked]
  unfold appends
  split
  · rfl
  · simp only [buffered, List.foldl_nil]
    omega

theorem not_mem_appending (s : Session Ptr) (offset : Int) (count len : Nat) :
    .shutdownWrite ∉ s.marks count ++ appends offset count len := by
  unfold marks appends
  split <;> split <;> simp

/-- The link between `state_`, the write interest, `outputBuffer_` and the calls
made so far. -/
structure Linked (s : Session Ptr) : Prop where
  wellFormed : s.connection.outputBuffer.WellFormed
  interest : s.connection.state ≠ .kDisconnected → s.Interested
  replayed : buffered 0 s.calls = s.unread
  shutsEmpty : ShutsEmpty 0 s.calls
  finished : s.connection.state = .kDisconnecting → s.unread = 0 → .shutdownWrite ∈ s.calls

/-- Calls that neither move bytes nor shut down. -/
theorem Linked.extend {s t : Session Ptr} {more : List Call} (linked : s.Linked)
    (calls : t.calls = s.calls ++ more)
    (wellFormed : t.connection.outputBuffer.WellFormed)
    (replayed : buffered s.unread more = t.unread)
    (shutsEmpty : ShutsEmpty s.unread more)
    (interest : t.connection.state ≠ .kDisconnected → t.Interested)
    (finished : t.connection.state = .kDisconnecting → t.unread = 0 →
      .shutdownWrite ∈ more ∨ s.connection.state = .kDisconnecting ∧ s.unread = 0) :
    t.Linked := by
  refine ⟨wellFormed, interest, ?_, ?_, ?_⟩
  · rw [calls, buffered_append, linked.replayed, replayed]
  · rw [calls, shutsEmpty_append, linked.replayed]
    exact ⟨linked.shutsEmpty, shutsEmpty⟩
  · intro disconnecting empty
    rw [calls, List.mem_append]
    rcases finished disconnecting empty with now | ⟨before, emptyBefore⟩
    · exact .inr now
    · exact .inl (linked.finished before emptyBefore)

theorem Linked.record {s : Session Ptr} (linked : s.Linked) {call : Call}
    (silent : call ≠ .shutdownWrite) (still : ∀ size, call.buffered size = size) :
    (s.record call).Linked :=
  linked.extend rfl linked.wellFormed (still _) ⟨fun shuts => absurd shuts silent, trivial⟩
    linked.interest (fun state empty => .inr ⟨state, empty⟩)

/-- A change that leaves `outputBuffer_` and the calls alone. -/
theorem Linked.keep {s t : Session Ptr} (linked : s.Linked) (calls : t.calls = s.calls)
    (output : t.connection.outputBuffer = s.connection.outputBuffer)
    (interest : t.connection.state ≠ .kDisconnected → (t.isWriting = true ↔ 0 < s.unread))
    (state : t.connection.state = .kDisconnecting → s.unread = 0 →
      s.connection.state = .kDisconnecting) : t.Linked := by
  have unread : t.unread = s.unread := congrArg Buffer.readableBytes output
  refine linked.extend (calls.trans (List.append_nil _).symm) (output ▸ linked.wellFormed)
    unread.symm trivial (by simpa only [Interested, unread] using interest) ?_
  rw [unread]
  exact fun disconnecting empty => .inr ⟨state disconnecting empty, empty⟩

theorem Linked.setInput {s : Session Ptr} (linked : s.Linked) (input : Buffer) :
    (s.setInput input).Linked :=
  linked.keep rfl rfl linked.interest (fun state _ => state)

theorem Linked.shutdown {s : Session Ptr} (linked : s.Linked) : s.shutdown.Linked := by
  unfold Session.shutdown
  split
  next connected =>
    have interest := linked.interest (by simp [connected])
    unfold shutdownInLoop
    split
    next idle =>
      have empty : s.unread = 0 := interest.idle_iff.mp ((Bool.not_eq_true' _).mp idle)
      exact linked.extend rfl linked.wellFormed rfl ⟨fun _ => empty, trivial⟩
        (fun _ => interest) (fun _ _ => .inl (List.mem_singleton_self _))
    next writing =>
      have busy : 0 < s.unread := by
        apply interest.mp
        simp only [Bool.not_eq_true', Bool.not_eq_false] at writing
        exact writing
      exact linked.keep rfl rfl (fun _ => interest) (fun _ empty => absurd empty (by omega))
  next => exact linked

variable [DecidableEq Ptr]

theorem Linked.sendinLoop {s t : Session Ptr} {data : Chunk} {answer : WriteResult}
    (linked : s.Linked) (valid : answer.Valid data.len)
    (returned : s.sendinLoop data answer = .ok t) : t.Linked := by
  have sent := sendinLoop_sent linked.wellFormed valid returned
  obtain ⟨offset, calls⟩ := sent.calls
  have unread := sent.unread
  have state : t.connection.state = s.connection.state := by rw [sent.frame]
  have direct : s.unread - s.taken answer = s.unread := by
    by_cases direct : s.Direct
    · have empty := (direct_unread direct).2
      omega
    · simp [taken, direct]
  refine linked.extend calls sent.wellFormed ?_ ?_ ?_ ?_
  · rw [buffered_append, buffered_directCalls, buffered_appending, direct, unread]
  · apply shutsEmpty_of_not_mem
    rw [List.mem_append, not_or]
    exact ⟨s.not_mem_directCalls data answer, s.not_mem_appending offset _ _⟩
  · rw [state]
    exact fun live => sent.interested (linked.interest live)
  · intro disconnecting empty
    exact .inr ⟨state.symm.trans disconnecting, by omega⟩

theorem Linked.handleWrite {s t : Session Ptr} {answer : WriteResult} (linked : s.Linked)
    (returned : s.handleWrite answer = .ok t) : t.Linked := by
  cases writing : s.isWriting with
  | false => exact handleWrite_idle writing returned ▸ linked
  | true =>
      have flushed := handleWrite_flushed linked.wellFormed writing returned
      have unread := flushed.unread
      have state : t.connection.state = s.connection.state := by rw [flushed.frame]
      have calls := flushed.calls
      by_cases drains : s.Drains answer
      · have empty : s.unread - answer.returned.toNat = 0 := by
          have all := drains.2
          omega
        rw [if_pos drains] at calls
        refine linked.extend calls flushed.wellFormed ?_ ?_ ?_ ?_
        · rw [unread, ← List.singleton_append, buffered_append]
          exact s.buffered_drainedCalls _
        · rw [← List.singleton_append, shutsEmpty_append]
          refine ⟨⟨by simp, trivial⟩, ?_⟩
          exact s.shutsEmpty_drainedCalls empty
        · rw [state]
          exact fun live => flushed.interested ((linked.interest live).mp writing)
        · rw [state]
          intro disconnecting _
          exact .inl (List.mem_cons_of_mem _ (s.mem_drainedCalls disconnecting))
      · rw [if_neg drains] at calls
        refine linked.extend calls flushed.wellFormed unread.symm
          (shutsEmpty_of_not_mem (by simp) _) ?_ ?_
        · rw [state]
          exact fun live => flushed.interested ((linked.interest live).mp writing)
        · rw [state]
          intro disconnecting empty
          have waiting := (linked.interest (by simp [disconnecting])).mp writing
          unfold Drains at drains
          omega

theorem Linked.userCall {s t : Session Ptr} {call : UserCall} (linked : s.Linked)
    (valid : call.Valid) (returned : s.userCall call = .ok t) : t.Linked := by
  cases call with
  | send data answer =>
      simp only [Session.userCall, send] at returned
      split at returned
      · exact linked.sendinLoop valid returned
      · cases returned
        exact linked
  | shutdown =>
      cases returned
      exact linked.shutdown
  | retrieve len =>
      cases returned
      exact linked.setInput _

theorem Linked.userCalls {s t : Session Ptr} {calls : List UserCall} (linked : s.Linked)
    (valid : ∀ call ∈ calls, call.Valid) (returned : s.userCalls calls = .ok t) : t.Linked := by
  induction calls generalizing s with
  | nil =>
      cases returned
      exact linked
  | cons call rest inductionHypothesis =>
      rw [Session.userCalls, List.foldlM_cons] at returned
      rcases bind_eq_ok.mp returned with ⟨middle, first, later⟩
      rw [List.forall_mem_cons] at valid
      exact inductionHypothesis (linked.userCall valid.1 first) valid.2 later

/-! ## Establishing and closing -/

theorem Linked.connectionCallback {s t : Session Ptr} {calls : List UserCall} (linked : s.Linked)
    (valid : ∀ call ∈ calls, call.Valid) (returned : s.connectionCallback calls = .ok t) :
    t.Linked := by
  unfold Session.connectionCallback at returned
  exact (linked.record (by simp) (fun _ => rfl)).userCalls valid returned

/-- Once closed, a connection may be left with bytes and no write interest. -/
theorem Linked.beginClose {s t : Session Ptr} (linked : s.Linked)
    (returned : s.beginClose = .ok t) : t.Linked := by
  obtain ⟨_, calls, connection⟩ := onFiled_setEvents rfl returned
  have closed : t.connection.state = .kDisconnected := by
    rw [connection]
    rfl
  apply linked.keep calls (by rw [connection]; rfl)
  · exact fun live => absurd closed live
  · rw [closed]
    simp

theorem Linked.handleClose {s t : Session Ptr} {calls : List UserCall} (linked : s.Linked)
    (valid : ∀ call ∈ calls, call.Valid) (returned : s.handleClose calls = .ok t) :
    t.Linked := by
  obtain ⟨closed, began, rest⟩ := bind_eq_ok.mp returned
  obtain ⟨notified, called, finished⟩ := bind_eq_ok.mp rest
  cases finished
  exact ((linked.beginClose began).connectionCallback valid called).record (by simp)
    (fun _ => rfl)

theorem Linked.handleRead {s t : Session Ptr} {answer : ReadvResult} {calls : List UserCall}
    (linked : s.Linked) (valid : ∀ call ∈ calls, call.Valid)
    (returned : s.handleRead answer calls = .ok t) : t.Linked := by
  obtain ⟨⟨input, n, _⟩, _, rest⟩ := bind_eq_ok.mp returned
  have received := linked.setInput input
  dsimp only at rest
  split at rest
  · exact (received.record (by simp) (fun _ => rfl)).userCalls valid rest
  · split at rest
    · exact received.handleClose valid rest
    · cases rest
      exact received

theorem Linked.connectEstablished {s t : Session Ptr} {calls : List UserCall}
    (linked : s.Linked) (connecting : s.connection.state = .kConnecting)
    (valid : ∀ call ∈ calls, call.Valid) (returned : s.connectEstablished calls = .ok t) :
    t.Linked := by
  obtain ⟨established, registered, called⟩ := bind_eq_ok.mp returned
  obtain ⟨_, sameCalls, connection⟩ := onFiled_setEvents rfl registered
  have linkedNow : established.Linked := by
    apply linked.keep sameCalls (by rw [connection]; rfl)
    · intro _
      rw [isWriting, connection, Filed.isWriting_enableReading]
      exact linked.interest (by simp [connecting])
    · rw [connection]
      simp [setState]
  exact linkedNow.connectionCallback valid called

omit [DecidableEq Ptr] in
theorem Linked.remove {s t : Session Ptr} (linked : s.Linked)
    (removed : s.onFiled Filed.remove = .ok t) : t.Linked := by
  obtain ⟨_, sameCalls, connection⟩ := onFiled_remove removed
  apply linked.keep sameCalls (by rw [connection])
  · rw [isWriting, connection]
    exact linked.interest
  · rw [connection]
    exact fun state _ => state

theorem Linked.connectDestroyed {s t : Session Ptr} {calls : List UserCall}
    (linked : s.Linked) (valid : ∀ call ∈ calls, call.Valid)
    (returned : s.connectDestroyed calls = .ok t) : t.Linked := by
  dsimp only [Session.connectDestroyed] at returned
  split at returned
  · obtain ⟨disabled, began, rest⟩ := bind_eq_ok.mp returned
    obtain ⟨closed, called, removed⟩ := bind_eq_ok.mp rest
    exact ((linked.beginClose began).connectionCallback valid called).remove removed
  · obtain ⟨closed, unchanged, removed⟩ := bind_eq_ok.mp returned
    cases unchanged
    exact linked.remove removed

/-! ## Runs -/

/-- What the loop thread runs, with the kernel's answers and the calls the user
makes in the callbacks. -/
inductive LoopCall where
  | connectEstablished (calls : List UserCall)
  | sendinLoop (data : Chunk) (answer : WriteResult)
  | handleWrite (answer : WriteResult)
  | handleRead (answer : ReadvResult) (calls : List UserCall)
  | shutdown
  | handleClose (calls : List UserCall)
  | connectDestroyed (calls : List UserCall)

/-- The answers of `::write` are answers it can give. -/
def LoopCall.Valid : LoopCall → Prop
  | .sendinLoop data answer => answer.Valid data.len
  | .connectEstablished calls | .handleRead _ calls | .handleClose calls
  | .connectDestroyed calls => ∀ call ∈ calls, call.Valid
  | .handleWrite _ | .shutdown => True

instance : DecidablePred LoopCall.Valid
  | .sendinLoop _ _ => inferInstanceAs (Decidable (WriteResult.Valid _ _))
  | .connectEstablished _ | .handleRead _ _ | .handleClose _ | .connectDestroyed _ =>
      inferInstanceAs (Decidable (∀ call ∈ _, _))
  | .handleWrite _ | .shutdown => isTrue trivial

/-- The `Server` has `connectEstablished` run once, before anything else can reach
the connection. -/
def Enabled (s : Session Ptr) : LoopCall → Prop
  | .connectEstablished _ => s.connection.state = .kConnecting
  | .sendinLoop _ _ | .handleWrite _ | .handleRead _ _ | .shutdown | .handleClose _
  | .connectDestroyed _ => s.connection.state ≠ .kConnecting

instance (s : Session Ptr) : DecidablePred s.Enabled
  | .connectEstablished _ => inferInstanceAs (Decidable (_ = _))
  | .sendinLoop _ _ | .handleWrite _ | .handleRead _ _ | .shutdown | .handleClose _
  | .connectDestroyed _ => inferInstanceAs (Decidable (_ ≠ _))

def run (s : Session Ptr) : LoopCall → Except Fault (Session Ptr)
  | .connectEstablished calls => s.connectEstablished calls
  | .sendinLoop data answer => s.sendinLoop data answer
  | .handleWrite answer => s.handleWrite answer
  | .handleRead answer calls => s.handleRead answer calls
  | .shutdown => return s.shutdown
  | .handleClose calls => s.handleClose calls
  | .connectDestroyed calls => s.connectDestroyed calls

def loopRuns : Machine (Session Ptr) LoopCall where
  step s call := if s.Enabled call ∧ call.Valid then (s.run call).toOption else none

/-- In a state between two calls: write interest follows the buffer, and the write
side is shut down neither before the buffer is empty nor left open after. -/
structure Graceful (s : Session Ptr) : Prop where
  interest : s.connection.state = .kConnected ∨ s.connection.state = .kDisconnecting →
    (s.connection.filed.isWriting = true ↔ 0 < s.connection.outputBuffer.readableBytes)
  replayed : buffered 0 s.calls = s.connection.outputBuffer.readableBytes
  neverEarly : ShutsEmpty 0 s.calls
  neverForgotten : s.connection.state = .kDisconnecting →
    s.connection.outputBuffer.readableBytes = 0 → .shutdownWrite ∈ s.calls

theorem Linked.step {s t : Session Ptr} {call : LoopCall} (linked : s.Linked)
    (stepped : loopRuns.step s call = some t) : t.Linked := by
  simp only [loopRuns] at stepped
  split at stepped
  next allowed =>
    obtain ⟨enabled, valid⟩ := allowed
    have returned := toOption_eq_some.mp stepped
    cases call with
    | connectEstablished calls => exact linked.connectEstablished enabled valid returned
    | sendinLoop data answer => exact linked.sendinLoop valid returned
    | handleWrite answer => exact linked.handleWrite returned
    | handleRead answer calls => exact linked.handleRead valid returned
    | shutdown =>
        cases returned
        exact linked.shutdown
    | handleClose calls => exact linked.handleClose valid returned
    | connectDestroyed calls => exact linked.connectDestroyed valid returned
  next => cases stepped

omit [DecidableEq Ptr] in
theorem Linked.graceful {s : Session Ptr} (linked : s.Linked) : s.Graceful := by
  refine ⟨?_, linked.replayed, linked.shutsEmpty, linked.finished⟩
  rintro (connected | disconnecting)
  · exact linked.interest (by simp [connected])
  · exact linked.interest (by simp [disconnecting])

/-- Every run of a connection from its construction, whatever its callbacks and its
mark. -/
theorem interest_follows_outputBuffer (ptr : Ptr) (fd mark : Nat)
    (writeCompleteCallback highWaterMarkCallback : Bool) (epoller : Epoller Ptr)
    (calls : List LoopCall) :
    loopRuns.Always Graceful
      (constructed ptr fd mark writeCompleteCallback highWaterMarkCallback epoller) calls := by
  obtain ⟨wellFormed, empty, interested⟩ :=
    constructed_idle ptr fd mark writeCompleteCallback highWaterMarkCallback epoller
  have initially : Linked
      (constructed ptr fd mark writeCompleteCallback highWaterMarkCallback epoller) :=
    ⟨wellFormed, fun _ => interested, empty.symm, trivial,
      by simp [constructed, make, Connection.make]⟩
  exact Machine.always_of_guarded (fun _ _ _ linked _ stepped => Linked.step linked stepped)
    (fun _ linked => Linked.graceful linked) initially (Machine.guarded_true _ calls)

/-- A blocked send, a shutdown in the next callback, and the write that drains. -/
example : (loopRuns.exec (constructed () 5 64 false false Epoller.make)
    [.connectEstablished [.send ⟨fun _ => 97, 2, by decide⟩ ⟨0, 0⟩],
      .handleRead (.received [98]) [.shutdown], .handleWrite ⟨2, 0⟩]).map
        (fun s => (s.connection.state, s.calls.getLast?)) =
      some (.kDisconnecting, some .shutdownWrite) := by
  decide +kernel

end Session

end Lucky
