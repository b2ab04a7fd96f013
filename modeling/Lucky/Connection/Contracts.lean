import Lucky.Connection.Closing
import Lucky.Connection.Interest
import Lucky.Connection.Stream
import Lucky.Systems.Contracts

/-!
# What the functions of a connection may throw

A connection is healthy when its `filed_` is registered as `index_` says and both
buffers have their layout.  From a healthy connection every function, with any
user code in its callbacks and any answer the kernel can give, returns with the
connection healthy or throws the `length_error` of a vector that would exceed
`max_size()`.  So no `assert` of `Epoller::update` fails, no `epoll_ctl` reaches
`LOG_FATAL`, and no copy a `Buffer` makes leaves its vector.

`connectionCallback_`, `messageCallback_` and `closeCallback_` are set, and user code
calls `send`, `shutdown` and `retrieve`.  What is read outside a buffer's vector is not asked here:
`append` may be given bytes in front of the caller's data, and `retrieveAsString(len)`
a length beyond the readable bytes.
-/

namespace Lucky

open Systems

/-- `readv` fills at most the space it is given. -/
def ReadvResult.Valid (answer : ReadvResult) (input : Buffer) : Prop :=
  match answer with
  | .failed _ => True
  | .received bytes => bytes.length ≤ input.iovTotal

instance (answer : ReadvResult) (input : Buffer) : Decidable (answer.Valid input) :=
  match answer with
  | .failed _ => isTrue trivial
  | .received _ => inferInstanceAs (Decidable (_ ≤ _))

namespace Session

variable {Ptr : Type}

structure Healthy (s : Session Ptr) : Prop where
  sound : s.Sound
  input : s.connection.inputBuffer.WellFormed
  output : s.connection.outputBuffer.WellFormed

/-- The function returns with the connection healthy or throws `length_error`. -/
abbrev Safe (computation : Except Fault (Session Ptr)) : Prop :=
  Ensures (· = .lengthError) Healthy computation

theorem Healthy.record {s : Session Ptr} (healthy : s.Healthy) (call : Call) :
    (s.record call).Healthy :=
  ⟨healthy.sound, healthy.input, healthy.output⟩

theorem Healthy.setState {s : Session Ptr} (healthy : s.Healthy) (state : StateE) :
    (s.setState state).Healthy :=
  ⟨healthy.sound, healthy.input, healthy.output⟩

theorem Healthy.setInput {s : Session Ptr} (healthy : s.Healthy) {input : Buffer}
    (formed : input.WellFormed) : (s.setInput input).Healthy :=
  ⟨healthy.sound, formed, healthy.output⟩

theorem Healthy.setOutput {s : Session Ptr} (healthy : s.Healthy) {output : Buffer}
    (formed : output.WellFormed) : (s.setOutput output).Healthy :=
  ⟨healthy.sound, healthy.input, formed⟩

theorem Healthy.shutdownInLoop {s : Session Ptr} (healthy : s.Healthy) :
    s.shutdownInLoop.Healthy := by
  unfold Session.shutdownInLoop
  split
  · exact healthy.record _
  · exact healthy

theorem Healthy.shutdown {s : Session Ptr} (healthy : s.Healthy) : s.shutdown.Healthy := by
  unfold Session.shutdown
  split
  · exact (healthy.setState _).shutdownInLoop
  · exact healthy

theorem Healthy.checkHighWaterMark {s : Session Ptr} (healthy : s.Healthy) (remaining : Nat) :
    (s.checkHighWaterMark remaining).Healthy := by
  unfold Session.checkHighWaterMark
  dsimp only
  split
  · exact healthy.record _
  · exact healthy

theorem Healthy.writeDirectly {s : Session Ptr} (healthy : s.Healthy) (data : Chunk)
    (answer : WriteResult) : (s.writeDirectly data answer).1.Healthy := by
  have written : (s.record (.write data.data answer)).Healthy := healthy.record _
  unfold Session.writeDirectly
  dsimp only
  split
  · split
    · exact written.record _
    · exact written
  · exact written

variable [DecidableEq Ptr]

/-- A call on the `Filed` of a healthy connection returns. -/
theorem Healthy.onFiled {s : Session Ptr} (healthy : s.Healthy) (request : Filed.Request) :
    ∃ t, s.onFiled request.call = .ok t ∧ t.Healthy := by
  obtain ⟨after, called, registered, _⟩ := request.call_registered healthy.sound
  refine ⟨_, onFiled_eq_ok.mpr ⟨after, _, called, rfl⟩, registered, healthy.input,
    healthy.output⟩

theorem Healthy.onFiled_ensures {s : Session Ptr} (healthy : s.Healthy)
    (request : Filed.Request) {raises : Fault → Prop} :
    Ensures raises Healthy (s.onFiled request.call) := by
  obtain ⟨t, returned, after⟩ := healthy.onFiled request
  exact .of_ok returned after

/-! ## Sending -/

theorem Healthy.bufferRemaining {s : Session Ptr} (healthy : s.Healthy) {data : Chunk}
    {progress : Progress} (object : progress.remaining ≤ data.len) :
    Safe (s.bufferRemaining data progress) := by
  unfold Session.bufferRemaining
  split
  · have marked := healthy.checkHighWaterMark progress.remaining
    have appends : Ensures (· = .lengthError) Buffer.WellFormed
        (((s.checkHighWaterMark progress.remaining).connection.outputBuffer.append
          (data.bytes progress.nwrote progress.remaining)).mapError (·.fault)) := by
      have fits := marked.output.fits (Nat.le_trans
        (Nat.le_of_eq (data.length_bytes progress.nwrote progress.remaining))
        (Nat.le_trans object data.fits))
      rcases marked.output.append fits with ⟨output, appended, formed, _⟩ | ⟨raised, _⟩
      · rw [appended]
        exact formed
      · rw [raised]
        exact rfl
    apply Ensures.bind appends
    intro output formed
    have appended := (marked.setOutput formed).record
      (.append progress.nwrote progress.remaining data.len)
    dsimp only
    split
    · exact appended.onFiled_ensures .enableWriting
    · exact appended
  · exact healthy

theorem Healthy.sendinLoop {s : Session Ptr} (healthy : s.Healthy) {data : Chunk}
    {answer : WriteResult} (valid : answer.Valid data.len) :
    Safe (s.sendinLoop data answer) := by
  unfold Session.sendinLoop
  split
  · exact healthy
  · split
    · apply (healthy.writeDirectly data answer).bufferRemaining
      obtain ⟨_, _, unsent, sent⟩ := s.writeDirectly_law valid
      by_cases counted : 0 < answer.returned
      · rw [(sent counted).1]
        exact Nat.sub_le ..
      · rw [unsent (Int.not_lt.mp counted)]
    · exact healthy.bufferRemaining (Nat.le_refl _)

/-! ## User code -/

theorem Healthy.userCall {s : Session Ptr} (healthy : s.Healthy) {call : UserCall}
    (valid : call.Valid) : Safe (s.userCall call) := by
  cases call with
  | send data answer =>
      simp only [Session.userCall, send]
      split
      · exact healthy.sendinLoop valid
      · exact healthy
  | shutdown => exact healthy.shutdown
  | retrieve len => exact healthy.setInput (healthy.input.retrieve len).1

theorem Healthy.userCalls {s : Session Ptr} (healthy : s.Healthy) {calls : List UserCall}
    (valid : ∀ call ∈ calls, call.Valid) : Safe (s.userCalls calls) :=
  .foldlM (fun _ call made current => current.userCall (valid call made)) healthy

theorem Healthy.connectionCallback {s : Session Ptr} (healthy : s.Healthy)
    {calls : List UserCall} (valid : ∀ call ∈ calls, call.Valid) :
    Safe (s.connectionCallback calls) :=
  (healthy.record _).userCalls valid

/-! ## Events -/

theorem Healthy.beginClose {s : Session Ptr} (healthy : s.Healthy) :
    ∃ t, s.beginClose = .ok t ∧ t.Healthy :=
  (healthy.setState .kDisconnected).onFiled .disableAll

theorem Healthy.handleClose {s : Session Ptr} (healthy : s.Healthy) {calls : List UserCall}
    (valid : ∀ call ∈ calls, call.Valid) : Safe (s.handleClose calls) := by
  obtain ⟨closed, began, healthyClosed⟩ := healthy.beginClose
  apply Ensures.bind (.of_ok began healthyClosed)
  intro closed healthyClosed
  apply Ensures.bind (healthyClosed.connectionCallback valid)
  intro notified healthyNotified
  exact healthyNotified.record .closeCallback

omit [DecidableEq Ptr] in
theorem Healthy.readFd {s : Session Ptr} (healthy : s.Healthy) {answer : ReadvResult}
    (fits : answer.Valid s.connection.inputBuffer) :
    Ensures (· = .lengthError) (fun result => result.1.WellFormed)
      ((s.connection.inputBuffer.readFd 0 answer).mapError (·.fault)) := by
  cases answer with
  | failed errno => exact healthy.input
  | received bytes =>
      rcases healthy.input.readFd fits 0 with
        ⟨next, returned, formed, _⟩ | ⟨left, raised, _⟩
      · rw [returned]
        exact formed
      · rw [raised]
        exact rfl

theorem Healthy.handleRead {s : Session Ptr} (healthy : s.Healthy) {answer : ReadvResult}
    {calls : List UserCall} (fits : answer.Valid s.connection.inputBuffer)
    (valid : ∀ call ∈ calls, call.Valid) : Safe (s.handleRead answer calls) := by
  apply Ensures.bind (healthy.readFd fits)
  rintro ⟨input, n, errno⟩ formed
  have received := healthy.setInput formed
  dsimp only
  split
  · exact (received.record .messageCallback).userCalls valid
  · split
    · exact received.handleClose valid
    · exact received

/-- Draining throws nothing, so that any `raises` will do. -/
theorem Healthy.outputDrained {s : Session Ptr} (healthy : s.Healthy) {raises : Fault → Prop} :
    Ensures raises Healthy s.outputDrained := by
  apply Ensures.bind (healthy.onFiled_ensures .disableWriting)
  intro disabled quiet
  have notified : (if disabled.connection.writeCompleteCallback then
      disabled.record (.queueinLoop .writeCompleteCallback) else disabled).Healthy := by
    split
    · exact quiet.record _
    · exact quiet
  dsimp only
  generalize (if disabled.connection.writeCompleteCallback then
    disabled.record (.queueinLoop .writeCompleteCallback) else disabled) = after at notified ⊢
  split
  · exact notified.shutdownInLoop
  · exact notified

theorem Healthy.handleWrite {s : Session Ptr} (healthy : s.Healthy) (answer : WriteResult)
    {raises : Fault → Prop} : Ensures raises Healthy (s.handleWrite answer) := by
  unfold Session.handleWrite
  split
  · have written := healthy.record (.write s.connection.outputBuffer.readable answer)
    dsimp only
    split
    · have retrieved := written.setOutput (healthy.output.retrieve
        (s.connection.outputBuffer.writeFd 0 answer).1.toNat).1
      split
      · exact retrieved.outputDrained
      · exact retrieved
    · exact written
  · exact healthy

/-! ## Establishing and destroying -/

theorem Healthy.establish {s : Session Ptr} (healthy : s.Healthy) :
    ∃ t, s.establish = .ok t ∧ t.Healthy := by
  have tied : Healthy { s.setState .kConnected with
      connection.filed := { (s.setState .kConnected).connection.filed with tied := true } } :=
    ⟨healthy.sound, healthy.input, healthy.output⟩
  exact tied.onFiled .enableReading

theorem Healthy.connectEstablished {s : Session Ptr} (healthy : s.Healthy)
    {calls : List UserCall} (valid : ∀ call ∈ calls, call.Valid) :
    Safe (s.connectEstablished calls) := by
  obtain ⟨established, began, after⟩ := healthy.establish
  apply Ensures.bind (.of_ok began after)
  intro established after
  exact after.connectionCallback valid

theorem Healthy.connectDestroyed {s : Session Ptr} (healthy : s.Healthy)
    {calls : List UserCall} (valid : ∀ call ∈ calls, call.Valid) :
    Safe (s.connectDestroyed calls) := by
  dsimp only [Session.connectDestroyed]
  split
  · obtain ⟨disabled, began, after⟩ := healthy.beginClose
    apply Ensures.bind (.of_ok began after)
    intro disabled after
    apply Ensures.bind (after.connectionCallback valid)
    intro closed after
    exact after.onFiled_ensures .remove
  · apply Ensures.bind (.ret healthy)
    intro closed after
    exact after.onFiled_ensures .remove

/-! ## Runs -/

/-- `readv` gives no more than it is asked for. -/
def Answerable (s : Session Ptr) : LoopCall → Prop
  | .handleRead answer _ => answer.Valid s.connection.inputBuffer
  | .connectEstablished _ | .sendinLoop _ _ | .handleWrite _ | .shutdown | .handleClose _
  | .connectDestroyed _ => True

instance (s : Session Ptr) : DecidablePred s.Answerable
  | .handleRead _ _ => inferInstanceAs (Decidable (ReadvResult.Valid _ _))
  | .connectEstablished _ | .sendinLoop _ _ | .handleWrite _ | .shutdown | .handleClose _
  | .connectDestroyed _ => isTrue trivial

theorem Healthy.run {s : Session Ptr} (healthy : s.Healthy) {call : LoopCall}
    (valid : call.Valid) (answerable : s.Answerable call) : Safe (s.run call) := by
  cases call with
  | connectEstablished calls => exact healthy.connectEstablished valid
  | sendinLoop data answer => exact healthy.sendinLoop valid
  | handleWrite answer => exact healthy.handleWrite answer
  | handleRead answer calls => exact healthy.handleRead answerable valid
  | shutdown => exact healthy.shutdown
  | handleClose calls => exact healthy.handleClose valid
  | connectDestroyed calls => exact healthy.connectDestroyed valid

/-- In every run of a connection with a descriptor its loop does not know yet and with the
callbacks it calls untested set, whatever it is called for next returns with the connection
healthy, or throws `length_error`. -/
theorem never_faults (ptr : Ptr) (fd mark : Nat)
    (writeCompleteCallback highWaterMarkCallback : Bool) (epoller : Epoller Ptr)
    (unknown : epoller.fileds fd = none) (unmonitored : epoller.interest fd = none)
    (calls : List LoopCall)
    (answered : loopRuns.Guarded Answerable
      (constructed ptr fd mark writeCompleteCallback highWaterMarkCallback epoller) calls) :
    loopRuns.Always (fun s => ∀ call : LoopCall, call.Valid → s.Answerable call →
        Safe (s.run call))
      (constructed ptr fd mark writeCompleteCallback highWaterMarkCallback epoller) calls := by
  have formed := Buffer.initial_wellFormed.1
  have initially : Healthy
      (constructed ptr fd mark writeCompleteCallback highWaterMarkCallback epoller) :=
    ⟨⟨unknown, unmonitored⟩, formed, formed⟩
  refine Machine.always_of_guarded ?_ ?_ initially answered
  · intro s call next healthy answerable stepped
    simp only [loopRuns] at stepped
    split at stepped
    next allowed =>
      exact (healthy.run allowed.2 answerable).value (toOption_eq_some.mp stepped)
    next => cases stepped
  · exact fun s healthy call valid answerable => healthy.run valid answerable

/-- The connection is sent to, shut down and closed twice, and destroyed. -/
theorem never_faults_closedTwice :
    loopRuns.Always (fun s => ∀ call : LoopCall, call.Valid → s.Answerable call →
        Safe (s.run call))
      (constructed () 5 64 true true Epoller.make)
      [.connectEstablished [.send ⟨fun _ => 97, 2, by decide⟩ ⟨1, EWOULDBLOCK⟩, .shutdown],
        .handleClose [], .handleRead (.received []) [], .handleWrite ⟨-1, 0⟩,
        .connectDestroyed []] := by
  refine never_faults () 5 64 true true Epoller.make rfl rfl _ ?_
  apply Machine.guarded_of_mem
  simp [Answerable, ReadvResult.Valid]

end Session

end Lucky
