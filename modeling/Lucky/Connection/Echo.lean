import Lucky.Connection.Contracts

/-!
# An echo server

`onMessage` of the echo server takes all that has been received out of the input
buffer and sends it.  Of a connection it serves, the bytes the kernel has taken and
those still waiting are therefore the bytes received, in order, as long as no direct
write loses its tail.
-/

namespace Lucky

open Systems

/-- The calls `EchoServer::onMessage` makes, where `msg` is what `retrieveAllAsString`
returns. -/
def onMessage (msg : Chunk) (answer : WriteResult) : List UserCall :=
  [.retrieve msg.len, .send msg answer]

/-- What `retrieveAllAsString` returns after `readFd`. -/
def message (input : Buffer) (readv : ReadvResult) : Except Raised (List Byte) := do
  let (filled, _, _) ← input.readFd 0 readv
  let (_, msg) ← filled.retrieveAllAsString
  return msg

/-- With nothing left over the message is what has been received. -/
theorem message_eq {input filled : Buffer} (wellFormed : input.WellFormed)
    (empty : input.readable = []) {bytes : List Byte} (fits : bytes.length ≤ input.iovTotal)
    {n : Int} {errno : Nat} (read : input.readFd 0 (.received bytes) = .ok (filled, n, errno)) :
    filled.WellFormed ∧ filled.readable = bytes ∧
      message input (.received bytes) = .ok bytes := by
  rcases wellFormed.readFd fits 0 with
    ⟨next, returned, formed, contents⟩ | ⟨left, raised, _⟩
  · rw [read] at returned
    cases returned
    rw [empty, List.nil_append] at contents
    refine ⟨formed, contents, ?_⟩
    have all := formed.retrieveAsString (Nat.le_refl filled.readableBytes)
    rw [List.take_of_length_le (Nat.le_of_eq formed.length_readable), contents] at all
    exact bind_eq_ok.mpr ⟨_, read, bind_eq_ok.mpr ⟨_, all, rfl⟩⟩
  · rw [read] at raised
    cases raised

/-- A connection of the echo server, with the bytes received so far. -/
structure Echo (Ptr : Type) where
  session : Session Ptr
  received : List Byte

namespace Session

variable {Ptr : Type} [DecidableEq Ptr]

theorem bufferRemaining_input {s t : Session Ptr} {data : Chunk} {progress : Progress}
    (wellFormed : s.connection.outputBuffer.WellFormed) (object : progress.remaining ≤ data.len)
    (returned : s.bufferRemaining data progress = .ok t) :
    t.connection.inputBuffer = s.connection.inputBuffer := by
  rcases bufferRemaining_cases wellFormed object returned with
    ⟨_, rfl⟩ | ⟨_, _, output, appended, _, _, rfl, finished⟩
  · rfl
  · have same := (s.checkHighWaterMark_frame progress.remaining).1
    split at finished
    · rw [finished, record, setOutput, same]
    · rw [(onFiled_frame finished).2, record, setOutput, same]

/-- Sending leaves the input alone. -/
theorem sendinLoop_input {s t : Session Ptr} {data : Chunk} {answer : WriteResult}
    (wellFormed : s.connection.outputBuffer.WellFormed) (valid : answer.Valid data.len)
    (returned : s.sendinLoop data answer = .ok t) :
    t.connection.inputBuffer = s.connection.inputBuffer := by
  unfold sendinLoop at returned
  split at returned
  · cases returned
    rfl
  · split at returned
    · obtain ⟨same, _, blocked, counted⟩ := s.writeDirectly_law valid
      have object : (s.writeDirectly data answer).2.remaining ≤ data.len := by
        by_cases positive : 0 < answer.returned
        · rw [(counted positive).1]
          exact Nat.sub_le _ _
        · rw [blocked (Int.not_lt.mp positive)]
      rw [bufferRemaining_input (same.symm ▸ wellFormed) object returned, same]
    · exact bufferRemaining_input wellFormed (Nat.le_refl _) returned

theorem handleWrite_input {s t : Session Ptr} {answer : WriteResult}
    (returned : s.handleWrite answer = .ok t) :
    t.connection.inputBuffer = s.connection.inputBuffer := by
  unfold handleWrite at returned
  split at returned
  · dsimp only at returned
    split at returned
    · split at returned
      · rw [(outputDrained_law returned).1]
        rfl
      · cases returned
        rfl
    · cases returned
      rfl
  · cases returned
    rfl

/-- A report with bytes is a call of `sendinLoop` with these bytes. -/
theorem handleRead_onMessage {s t : Session Ptr} {bytes : List Byte} {msg : Chunk}
    {answer : WriteResult} (connected : s.connection.state = .kConnected)
    (wellFormed : s.connection.inputBuffer.WellFormed)
    (empty : s.connection.inputBuffer.readable = []) (nonempty : bytes ≠ [])
    (fits : bytes.length ≤ s.connection.inputBuffer.iovTotal)
    (whole : message s.connection.inputBuffer (.received bytes) = .ok msg.data)
    (returned : s.handleRead (.received bytes) (onMessage msg answer) = .ok t) :
    msg.data = bytes ∧ ∃ input, input.WellFormed ∧ input.readable = [] ∧
      ((s.setInput input).record .messageCallback).sendinLoop msg answer = .ok t := by
  obtain ⟨⟨filled, n, errno⟩, read, reacted⟩ := bind_eq_ok.mp returned
  rw [mapError_eq_ok] at read
  obtain ⟨formed, contents, text⟩ := message_eq wellFormed empty fits read
  have same : msg.data = bytes := by
    rw [whole] at text
    exact Except.ok.inj text
  have positive : 0 < n := by
    rw [Buffer.readFd_count read]
    exact Int.natCast_pos.mpr (List.length_pos_iff.mpr nonempty)
  have length : msg.len = filled.readable.length := by
    rw [contents, ← same, Chunk.length_data]
  obtain ⟨retrieved, rest⟩ := formed.retrieve msg.len
  rw [length, List.drop_length] at rest
  refine ⟨same, filled.retrieve msg.len, retrieved, length ▸ rest, ?_⟩
  dsimp only at reacted
  rw [if_pos positive] at reacted
  obtain ⟨emptied, taken, sending⟩ := bind_eq_ok.mp reacted
  cases taken
  obtain ⟨sent, sends, finished⟩ := bind_eq_ok.mp sending
  cases finished
  exact (if_pos connected).symm.trans sends

end Session

namespace Echo

variable {Ptr : Type}

inductive Action where
  | handleRead (bytes : List Byte) (msg : Chunk) (answer : WriteResult)
  | handleWrite (answer : WriteResult)

/-- From its output the connection looks as if the received bytes were passed to it. -/
def outgoing (state : Echo Ptr) : Outgoing Ptr := ⟨state.session, state.received⟩

/-- All that has been received has been sent or waits to be sent. -/
structure Echoed (backlog : List Byte) (state : Echo Ptr) : Prop where
  intact : state.outgoing.Intact backlog
  consumed : state.session.connection.inputBuffer.readable = []

def KeepsTail (state : Echo Ptr) : Action → Prop
  | .handleRead _ msg answer => state.outgoing.KeepsTail (.sendinLoop msg answer)
  | .handleWrite _ => True

instance (state : Echo Ptr) : DecidablePred state.KeepsTail
  | .handleRead _ msg answer =>
      inferInstanceAs (Decidable (state.outgoing.KeepsTail (.sendinLoop msg answer)))
  | .handleWrite _ => isTrue trivial

variable [DecidableEq Ptr]

/-- A report on the open connection: `readv` receives some bytes, or the socket takes some. -/
def serving : Machine (Echo Ptr) Action where
  step state
    | .handleRead bytes msg answer =>
        if bytes ≠ [] ∧ bytes.length ≤ state.session.connection.inputBuffer.iovTotal ∧
            KernelMay answer msg.len ∧
            (message state.session.connection.inputBuffer (.received bytes)).toOption =
              some msg.data then
          (state.session.handleRead (.received bytes) (onMessage msg answer)).toOption.map
            fun next => ⟨next, state.received ++ bytes⟩
        else none
    | .handleWrite answer =>
        (Outgoing.transmissions.step state.outgoing (.handleWrite answer)).map
          fun next => ⟨next.session, next.passed⟩

/-- What a run keeps as long as everything is echoed. -/
structure Sound (backlog : List Byte) (state : Echo Ptr) : Prop where
  outgoing : state.outgoing.Sound backlog
  input : state.session.connection.inputBuffer.WellFormed
  consumed : state.session.connection.inputBuffer.readable = []

variable {backlog : List Byte} {state next : Echo Ptr}

theorem Sound.handleRead (sound : state.Sound backlog) {bytes : List Byte} {msg : Chunk}
    {answer : WriteResult}
    (stepped : serving.step state (.handleRead bytes msg answer) = some next) :
    next.session.connection.state = .kConnected ∧
      next.session.connection.outputBuffer.WellFormed ∧
      next.session.connection.inputBuffer.WellFormed ∧
      next.session.connection.inputBuffer.readable = [] ∧
      (next.outgoing.Intact backlog ↔ state.KeepsTail (.handleRead bytes msg answer)) := by
  simp only [serving, Option.ite_none_right_eq_some, toOption_eq_some] at stepped
  obtain ⟨⟨nonempty, fits, may, whole⟩, handled⟩ := stepped
  obtain ⟨session, returned, rfl⟩ := Option.map_eq_some_iff.mp handled
  obtain ⟨same, input, formed, empty, sent⟩ := Session.handleRead_onMessage
    sound.outgoing.connected sound.input sound.consumed nonempty fits whole
    (toOption_eq_some.mp returned)
  -- before the message is sent the output is as it was
  let before : Outgoing Ptr :=
    ⟨(state.session.setInput input).record .messageCallback, state.received⟩
  have soundBefore : before.Sound backlog := by
    refine ⟨sound.outgoing.connected, sound.outgoing.wellFormed, ?_, ?_⟩
    · have stream := sound.outgoing.intact.stream
      rw [← List.append_nil (accepted state.outgoing.session.calls)] at stream
      exact (accepted_append state.session.calls [.messageCallback]).symm ▸ stream
    · intro call made
      rcases List.mem_append.mp made with earlier | callback
      · exact sound.outgoing.intact.contained call earlier
      · rw [List.mem_singleton.mp callback]
        trivial
  have passes : Outgoing.transmissions.step before (.sendinLoop msg answer) =
      some ⟨session, state.received ++ msg.data⟩ := by
    have sends : before.session.sendinLoop msg answer = .ok session := sent
    simp only [Outgoing.transmissions, if_pos may]
    rw [sends]
  obtain ⟨connected, wellFormed, iff⟩ := Outgoing.sendinLoop_intact_iff soundBefore passes
  have kept := Session.sendinLoop_input soundBefore.wellFormed may.1 sent
  refine ⟨connected, wellFormed, ?_, ?_, ?_⟩
  · rw [kept]
    exact formed
  · rw [kept]
    exact empty
  · rw [same] at iff
    exact iff

theorem Sound.handleWrite (sound : state.Sound backlog) {answer : WriteResult}
    (stepped : serving.step state (.handleWrite answer) = some next) : next.Sound backlog := by
  obtain ⟨written, moved, rfl⟩ := Option.map_eq_some_iff.mp stepped
  have kept := Session.handleWrite_input (Outgoing.step_handleWrite moved).2.1
  change written.session.connection.inputBuffer = state.session.connection.inputBuffer at kept
  exact ⟨Outgoing.handleWrite_intact sound.outgoing moved, kept ▸ sound.input,
    kept ▸ sound.consumed⟩

/-- Of an open connection everything received has been sent or waits to be sent, in order and
with nothing else in between, throughout a run exactly when every direct write of the run
keeps the tail; and the input buffer is empty after every report. -/
theorem echoed_iff_keepsTail (session : Session Ptr)
    (connected : session.connection.state = .kConnected)
    (output : session.connection.outputBuffer.WellFormed)
    (input : session.connection.inputBuffer.WellFormed)
    (consumed : session.connection.inputBuffer.readable = []) (actions : List Action) :
    serving.Always (Echoed session.connection.outputBuffer.readable)
        ⟨{ session with calls := [] }, []⟩ actions ↔
      serving.Guarded KeepsTail ⟨{ session with calls := [] }, []⟩ actions := by
  apply Machine.always_iff_guarded (Sound session.connection.outputBuffer.readable)
  · intro state action next sound keeps stepped
    cases action with
    | handleRead bytes msg answer =>
        obtain ⟨connected, wellFormed, formed, empty, intact⟩ := sound.handleRead stepped
        exact ⟨⟨connected, wellFormed, intact.mpr keeps⟩, formed, empty⟩
    | handleWrite answer => exact sound.handleWrite stepped
  · exact fun state sound => ⟨sound.outgoing.intact, sound.consumed⟩
  · intro state action next sound stepped echoed
    cases action with
    | handleRead bytes msg answer =>
        exact (sound.handleRead stepped).2.2.2.2.mp echoed.intact
    | handleWrite answer => trivial
  · exact ⟨⟨connected, output, by simp [outgoing, accepted], by simp [outgoing]⟩,
      input, consumed⟩

/-- Two messages, of which the second waits while the first is being sent. -/
theorem echoed_iff_keepsTail_waiting :
    serving.Always (Echoed Outgoing.connected.connection.outputBuffer.readable)
      ⟨{ Outgoing.connected with calls := [] }, []⟩
      [.handleRead [97, 98] Outgoing.ab ⟨0, 0⟩, .handleRead [97, 98] Outgoing.ab ⟨2, 0⟩,
        .handleWrite ⟨3, 0⟩, .handleWrite ⟨1, 0⟩] :=
  (echoed_iff_keepsTail Outgoing.connected rfl Buffer.initial_wellFormed.1
    Buffer.initial_wellFormed.1 rfl _).mpr (by decide +kernel)

end Echo

end Lucky
