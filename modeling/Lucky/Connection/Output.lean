import Lucky.Connection.Stream

/-!
# The output of a connection

Only the direct write of `sendinLoop` and `handleWrite` touch what a connection has
sent and what waits to be sent, whatever its state.  What the functions do depends
on the calls made before in no way.
-/

namespace Lucky

open Systems

namespace Session

variable {Ptr : Type}

/-- Nothing is sent and nothing is kept for later. -/
structure Unsent (s t : Session Ptr) : Prop where
  output : t.connection.outputBuffer = s.connection.outputBuffer
  calls : ∃ made, t.calls = s.calls ++ made ∧ accepted made = [] ∧
    ∀ call ∈ made, call.InRange

namespace Unsent

theorem of_same {s t : Session Ptr} (output : t.connection.outputBuffer = s.connection.outputBuffer)
    (calls : t.calls = s.calls) : Unsent s t :=
  ⟨output, [], by rw [calls, List.append_nil], rfl, by simp⟩

theorem setState (s : Session Ptr) (state : StateE) : Unsent s (s.setState state) :=
  .of_same rfl rfl

theorem setInput (s : Session Ptr) (input : Buffer) : Unsent s (s.setInput input) :=
  .of_same rfl rfl

theorem trans {r s t : Session Ptr} (first : Unsent r s) (second : Unsent s t) : Unsent r t := by
  obtain ⟨earlier, before, nothing, inRange⟩ := first.calls
  obtain ⟨later, after, noneAfter, inRangeAfter⟩ := second.calls
  refine ⟨second.output.trans first.output, earlier ++ later, ?_, ?_, ?_⟩
  · rw [after, before, List.append_assoc]
  · rw [accepted_append, nothing, noneAfter, List.append_nil]
  · intro call made
    rcases List.mem_append.mp made with old | new
    · exact inRange call old
    · exact inRangeAfter call new

theorem record (s : Session Ptr) {call : Call} (nothing : call.accepted = [])
    (inRange : call.InRange) : Unsent s (s.record call) := by
  refine ⟨rfl, [call], rfl, ?_, ?_⟩
  · simp [accepted, nothing]
  · simpa using inRange

theorem onFiled {s t : Session Ptr}
    {call : Epoller Ptr → Ptr → Filed → Except Fault (Epoller Ptr × Filed)}
    (returned : s.onFiled call = .ok t) : Unsent s t := by
  obtain ⟨calls, connection⟩ := onFiled_frame returned
  exact .of_same (by rw [connection]) calls

theorem shutdownInLoop (s : Session Ptr) : Unsent s s.shutdownInLoop := by
  unfold Session.shutdownInLoop
  split
  · exact .record s rfl trivial
  · exact .of_same rfl rfl

theorem shutdown (s : Session Ptr) : Unsent s s.shutdown := by
  unfold Session.shutdown
  split
  · exact (setState s .kDisconnecting).trans (.shutdownInLoop _)
  · exact .of_same rfl rfl

variable [DecidableEq Ptr]

theorem beginClose {s t : Session Ptr} (returned : s.beginClose = .ok t) : Unsent s t := by
  unfold Session.beginClose at returned
  exact (setState s .kDisconnected).trans (.onFiled returned)

theorem establish {s t : Session Ptr} (returned : s.establish = .ok t) : Unsent s t := by
  have tied : Unsent s { s.setState .kConnected with
      connection.filed := { (s.setState .kConnected).connection.filed with tied := true } } :=
    .of_same rfl rfl
  exact tied.trans (.onFiled returned)

/-- The user's calls come after `handleRead`. -/
theorem handleRead {s t : Session Ptr} {answer : ReadvResult}
    (returned : s.handleRead answer [] = .ok t) : Unsent s t := by
  obtain ⟨⟨input, n, errno⟩, read, reacted⟩ := bind_eq_ok.mp returned
  dsimp only at reacted
  have received := setInput s input
  split at reacted
  · cases reacted
    exact received.trans (.record _ rfl trivial)
  · split at reacted
    · obtain ⟨closed, began, closing⟩ := bind_eq_ok.mp reacted
      cases closing
      have told : Unsent closed (closed.record (.connectionCallback closed.isConnect)) :=
        .record closed rfl trivial
      exact (received.trans (.beginClose began)).trans (told.trans (.record _ rfl trivial))
    · cases reacted
      exact received

theorem outputDrained {s t : Session Ptr} (returned : s.outputDrained = .ok t) : Unsent s t := by
  obtain ⟨_, output, calls⟩ := outputDrained_calls returned
  exact ⟨output, calls⟩

end Unsent

variable [DecidableEq Ptr]

/-- The front of the output is written, and nothing else changes it. -/
structure Flows (s t : Session Ptr) : Prop where
  wellFormed : t.connection.outputBuffer.WellFormed
  calls : ∃ made, t.calls = s.calls ++ made ∧ (∀ call ∈ made, call.InRange) ∧
    accepted made ++ t.connection.outputBuffer.readable = s.connection.outputBuffer.readable

omit [DecidableEq Ptr] in
theorem Flows.unsent {s t : Session Ptr} (wellFormed : s.connection.outputBuffer.WellFormed)
    (unsent : s.Unsent t) : s.Flows t := by
  obtain ⟨made, calls, nothing, inRange⟩ := unsent.calls
  refine ⟨unsent.output ▸ wellFormed, made, calls, inRange, ?_⟩
  rw [nothing, List.nil_append, unsent.output]

theorem Flows.handleWrite {s t : Session Ptr} {answer : WriteResult}
    (wellFormed : s.connection.outputBuffer.WellFormed)
    (returned : s.handleWrite answer = .ok t) : s.Flows t := by
  obtain ⟨_, formed, made, count, calls, inRange, written, rest⟩ :=
    handleWrite_sends wellFormed returned
  refine ⟨formed, made, calls, inRange, ?_⟩
  rw [written, rest, List.take_append_drop]

/-! ## Calls made before -/

/-- The session after other calls have been made before its own. -/
def prepend (s : Session Ptr) (earlier : List Call) : Session Ptr :=
  { s with calls := earlier ++ s.calls }

omit [DecidableEq Ptr] in
theorem connection_prepend (s : Session Ptr) (earlier : List Call) :
    (s.prepend earlier).connection = s.connection := rfl

omit [DecidableEq Ptr] in
theorem record_prepend (s : Session Ptr) (earlier : List Call) (call : Call) :
    (s.prepend earlier).record call = (s.record call).prepend earlier := by
  rw [prepend, record, record, prepend, List.append_assoc]

omit [DecidableEq Ptr] in
theorem onFiled_prepend (s : Session Ptr) (earlier : List Call)
    (call : Epoller Ptr → Ptr → Filed → Except Fault (Epoller Ptr × Filed)) :
    (s.prepend earlier).onFiled call = (s.onFiled call).map (·.prepend earlier) := by
  change (call s.epoller s.ptr s.connection.filed >>= _) = _
  rw [onFiled]
  cases call s.epoller s.ptr s.connection.filed <;> rfl

omit [DecidableEq Ptr] in
theorem writeDirectly_prepend (s : Session Ptr) (earlier : List Call) (data : Chunk)
    (answer : WriteResult) : (s.prepend earlier).writeDirectly data answer =
      ((s.writeDirectly data answer).1.prepend earlier, (s.writeDirectly data answer).2) := by
  simp only [writeDirectly, record_prepend, connection_prepend]
  by_cases positive : answer.returned > 0
  · simp only [if_pos positive]
    by_cases complete : sizeSub data.len answer.returned.toNat = 0 ∧
        s.connection.writeCompleteCallback
    · simp only [if_pos complete]
    · simp only [if_neg complete]
  · simp only [if_neg positive]

omit [DecidableEq Ptr] in
theorem checkHighWaterMark_prepend (s : Session Ptr) (earlier : List Call) (remaining : Nat) :
    (s.prepend earlier).checkHighWaterMark remaining =
      (s.checkHighWaterMark remaining).prepend earlier := by
  simp only [checkHighWaterMark, record_prepend, connection_prepend]
  exact (apply_ite (fun marked : Session Ptr => marked.prepend earlier) _ _ _).symm

theorem bufferRemaining_prepend (s : Session Ptr) (earlier : List Call) (data : Chunk)
    (progress : Progress) : (s.prepend earlier).bufferRemaining data progress =
      (s.bufferRemaining data progress).map (·.prepend earlier) := by
  simp only [bufferRemaining, checkHighWaterMark_prepend, connection_prepend]
  generalize s.checkHighWaterMark progress.remaining = marked
  by_cases keeps : !progress.faultError ∧ 0 < progress.remaining
  · simp only [if_pos keeps]
    cases (marked.connection.outputBuffer.append
      (data.bytes progress.nwrote progress.remaining)).mapError (·.fault) with
    | error fault => rfl
    | ok output =>
        have appended := record_prepend (marked.setOutput output) earlier
          (.append progress.nwrote progress.remaining data.len)
        change ((marked.prepend earlier).setOutput output).record _ = _ at appended
        change (if
            !(((marked.prepend earlier).setOutput output).record _).connection.filed.isWriting
          then _ else _) = Except.map _ (if _ then _ else _)
        rw [appended, onFiled_prepend, apply_ite (Except.map _)]
        rfl
  · simp only [if_neg keeps]
    rfl

theorem sendinLoop_prepend (s : Session Ptr) (earlier : List Call) (data : Chunk)
    (answer : WriteResult) : (s.prepend earlier).sendinLoop data answer =
      (s.sendinLoop data answer).map (·.prepend earlier) := by
  unfold sendinLoop
  rw [writeDirectly_prepend, bufferRemaining_prepend, bufferRemaining_prepend]
  change (if s.connection.state = .kDisconnected then _ else
    if s.writesDirectly = true then _ else _) = _
  split
  · rfl
  · split <;> rfl

omit [DecidableEq Ptr] in
theorem shutdownInLoop_prepend (s : Session Ptr) (earlier : List Call) :
    (s.prepend earlier).shutdownInLoop = s.shutdownInLoop.prepend earlier := by
  simp only [shutdownInLoop, record_prepend, connection_prepend]
  exact (apply_ite (fun shut : Session Ptr => shut.prepend earlier) _ _ _).symm

omit [DecidableEq Ptr] in
theorem shutdown_prepend (s : Session Ptr) (earlier : List Call) :
    (s.prepend earlier).shutdown = s.shutdown.prepend earlier := by
  have closing := shutdownInLoop_prepend (s.setState .kDisconnecting) earlier
  unfold shutdown
  by_cases connected : s.connection.state = .kConnected
  · rw [if_pos connected, ← closing]
    exact if_pos connected
  · rw [if_neg connected]
    exact if_neg connected

theorem userCall_prepend (s : Session Ptr) (earlier : List Call) (call : UserCall) :
    (s.prepend earlier).userCall call = (s.userCall call).map (·.prepend earlier) := by
  cases call with
  | send data answer =>
      simp only [userCall, send, sendinLoop_prepend, connection_prepend]
      split <;> rfl
  | shutdown => exact congrArg Except.ok (shutdown_prepend s earlier)
  | retrieve len => rfl

theorem beginClose_prepend (s : Session Ptr) (earlier : List Call) :
    (s.prepend earlier).beginClose = s.beginClose.map (·.prepend earlier) :=
  onFiled_prepend (s.setState .kDisconnected) earlier _

theorem establish_prepend (s : Session Ptr) (earlier : List Call) :
    (s.prepend earlier).establish = s.establish.map (·.prepend earlier) :=
  onFiled_prepend { s.setState .kConnected with
    connection.filed := { (s.setState .kConnected).connection.filed with tied := true } } earlier _

theorem handleClose_prepend (s : Session Ptr) (earlier : List Call) :
    (s.prepend earlier).handleClose [] = (s.handleClose []).map (·.prepend earlier) := by
  unfold handleClose
  rw [beginClose_prepend]
  cases s.beginClose with
  | error fault => rfl
  | ok closed =>
      change Except.ok (((closed.prepend earlier).record _).record _) = Except.ok _
      rw [record_prepend, record_prepend]
      rfl

theorem handleRead_prepend (s : Session Ptr) (earlier : List Call) (answer : ReadvResult) :
    (s.prepend earlier).handleRead answer [] =
      (s.handleRead answer []).map (·.prepend earlier) := by
  unfold handleRead
  simp only [connection_prepend]
  cases (s.connection.inputBuffer.readFd 0 answer).mapError (·.fault) with
  | error fault => rfl
  | ok read =>
      obtain ⟨input, n, errno⟩ := read
      have received := handleClose_prepend (s.setInput input) earlier
      have told := record_prepend (s.setInput input) earlier .messageCallback
      change (if n > 0 then _ else if n = 0 then _ else _) =
        Except.map _ (if n > 0 then _ else if n = 0 then _ else _)
      rw [apply_ite (Except.map _), apply_ite (Except.map _)]
      refine ite_congr rfl (fun _ => ?_) fun _ => ite_congr rfl (fun _ => received) fun _ => rfl
      exact congrArg Except.ok told

theorem outputDrained_prepend (s : Session Ptr) (earlier : List Call) :
    (s.prepend earlier).outputDrained = s.outputDrained.map (·.prepend earlier) := by
  unfold outputDrained
  rw [onFiled_prepend]
  cases s.onFiled Filed.disableWriting with
  | error fault => rfl
  | ok disabled =>
      simp only [Except.map]
      change Except.ok _ = Except.ok _
      simp only [record_prepend, connection_prepend]
      rw [← apply_ite (fun told : Session Ptr => told.prepend earlier),
        shutdownInLoop_prepend, connection_prepend]
      exact congrArg Except.ok
        (apply_ite (fun shut : Session Ptr => shut.prepend earlier) _ _ _).symm

theorem handleWrite_prepend (s : Session Ptr) (earlier : List Call) (answer : WriteResult) :
    (s.prepend earlier).handleWrite answer = (s.handleWrite answer).map (·.prepend earlier) := by
  unfold handleWrite
  let output := s.connection.outputBuffer
  have written := record_prepend s earlier (.write output.readable answer)
  have drained := outputDrained_prepend ((s.record (.write output.readable answer)).setOutput
    (output.retrieve answer.returned.toNat)) earlier
  simp only [connection_prepend, Buffer.writeFd_fst]
  rw [apply_ite (Except.map _), apply_ite (Except.map _), apply_ite (Except.map _), written]
  refine ite_congr rfl (fun _ => ?_) fun _ => rfl
  refine ite_congr rfl (fun _ => ?_) fun _ => rfl
  exact ite_congr rfl (fun _ => drained) fun _ => rfl

omit [DecidableEq Ptr] in
theorem Flows.prepend {s t : Session Ptr} (flows : s.Flows t) (earlier : List Call) :
    (s.prepend earlier).Flows (t.prepend earlier) := by
  obtain ⟨made, calls, inRange, stream⟩ := flows.calls
  refine ⟨flows.wellFormed, made, ?_, inRange, stream⟩
  simp only [Session.prepend, calls, List.append_assoc]

end Session

namespace Outgoing

variable {Ptr : Type} {backlog : List Byte}

theorem Intact.congr {state other : Outgoing Ptr} (intact : state.Intact backlog)
    (calls : other.session.calls = state.session.calls)
    (connection : other.session.connection = state.session.connection)
    (passed : other.passed = state.passed) : other.Intact backlog := by
  refine ⟨?_, calls ▸ intact.contained⟩
  rw [calls, connection, passed]
  exact intact.stream

theorem Intact.flows {s t : Session Ptr} {passed : List Byte}
    (intact : Intact backlog ⟨s, passed⟩) (flows : s.Flows t) :
    Intact backlog ⟨t, passed⟩ := by
  obtain ⟨made, calls, inRange, stream⟩ := flows.calls
  constructor
  · have before := intact.stream
    rw [← stream, ← List.append_assoc, ← accepted_append, ← calls] at before
    exact before
  · intro call done
    rw [calls] at done
    rcases List.mem_append.mp done with earlier | new
    · exact intact.contained call earlier
    · exact inRange call new

end Outgoing

end Lucky
