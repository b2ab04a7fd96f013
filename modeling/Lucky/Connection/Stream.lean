import Lucky.Connection.Laws
import Lucky.Systems.Machine

/-!
# The outgoing byte stream

Runs of `sendinLoop` and `handleWrite` on one connected connection, under any
answers of `::write`.  The stream is intact when the bytes the kernel accepted
followed by the readable bytes of `outputBuffer_` are the bytes passed to
`sendinLoop`.  A direct write that is short or would block breaks it.
-/

namespace Lucky

open Systems

theorem Chunk.drop_data (chunk : Chunk) (count : Nat) :
    chunk.data.drop count = chunk.bytes count (chunk.len - count) := by
  apply List.ext_getElem
  · simp [Chunk.length_data]
  · intro position _ _
    simp [Chunk.data, Chunk.bytes]

def Call.accepted : Call → List Byte
  | .write requested answer => requested.take answer.returned.toNat
  | _ => []

/-- A copy into `outputBuffer_` reads only bytes of `[data, data + len)`. -/
def Call.InRange : Call → Prop
  | .append offset count len => 0 ≤ offset ∧ offset + count ≤ len
  | _ => True

instance : DecidablePred Call.InRange
  | .append _ _ _ => inferInstanceAs (Decidable (_ ∧ _))
  | .write _ _ | .queueinLoop _ | .shutdownWrite | .connectionCallback _ | .messageCallback
  | .closeCallback => isTrue trivial

def accepted (calls : List Call) : List Byte := calls.flatMap Call.accepted

@[simp]
theorem accepted_append (first second : List Call) :
    accepted (first ++ second) = accepted first ++ accepted second :=
  List.flatMap_append

theorem accepted_queued (queued : List Queued) :
    accepted (queued.map .queueinLoop) = [] := by
  simp [accepted, Call.accepted]

theorem inRange_queued (queued : List Queued) :
    ∀ call ∈ queued.map Call.queueinLoop, call.InRange := by
  intro call membership
  obtain ⟨functor, _, rfl⟩ := List.mem_map.mp membership
  trivial

namespace Session

variable {Ptr : Type}

/-- The direct write and the locals it leaves: after a count the rest of the
chunk remains, but from offset 0 and with the old `errno` as the verdict. -/
theorem writeDirectly_law (s : Session Ptr) {data : Chunk} {answer : WriteResult}
    (valid : answer.Valid data.len) :
    (s.writeDirectly data answer).1.connection = s.connection ∧
    (∃ queued : List Queued, (s.writeDirectly data answer).1.calls =
      s.calls ++ (.write data.data answer :: queued.map .queueinLoop)) ∧
    (answer.returned ≤ 0 →
      (s.writeDirectly data answer).2 = ⟨answer.returned, data.len, false⟩) ∧
    (0 < answer.returned →
      (s.writeDirectly data answer).2.remaining = data.len - answer.returned.toNat ∧
      (0 < (s.writeDirectly data answer).2.remaining →
        (s.writeDirectly data answer).2.nwrote = 0 ∧
        (s.writeDirectly data answer).2.faultError = (answer.errno != EWOULDBLOCK))) := by
  have object := data.fits
  unfold writeDirectly
  dsimp only
  by_cases positive : answer.returned > 0
  · have counted : answer.returned.toNat ≤ data.len := by
      rcases valid with failed | ⟨_, bounded⟩ <;> omega
    have rest : sizeSub data.len answer.returned.toNat =
        data.len - answer.returned.toNat :=
      sizeSub_of_le counted (by simp only [maxSize, sizeModulus] at *; omega)
    rw [if_pos positive, rest]
    split
    next complete =>
      refine ⟨rfl, ⟨[.writeCompleteCallback], by simp [record]⟩, by omega,
        fun _ => ⟨rfl, ?_⟩⟩
      intro remains
      simp only at remains
      omega
    next incomplete =>
      exact ⟨rfl, ⟨[], by simp [record]⟩, by omega,
        fun _ => ⟨rfl, fun _ => ⟨rfl, rfl⟩⟩⟩
  · rw [if_neg positive]
    exact ⟨rfl, ⟨[], by simp [record]⟩, fun _ => rfl,
      fun positive' => absurd positive' positive⟩

variable [DecidableEq Ptr]

theorem sendinLoop_buffers {s t : Session Ptr} {data : Chunk} {answer : WriteResult}
    (connected : s.connection.state = .kConnected)
    (wellFormed : s.connection.outputBuffer.WellFormed)
    (behind : s.writesDirectly = false)
    (returned : s.sendinLoop data answer = .ok t) :
    t.connection.state = .kConnected ∧ t.connection.outputBuffer.WellFormed ∧
    ∃ made, t.calls = s.calls ++ made ∧ accepted made = [] ∧
      (∀ call ∈ made, call.InRange) ∧
      t.connection.outputBuffer.readable =
        s.connection.outputBuffer.readable ++ data.data := by
  simp only [sendinLoop, connected, behind, reduceCtorEq, if_false, Bool.false_eq_true] at returned
  rcases bufferRemaining_law wellFormed (Nat.le_refl _) returned with
    ⟨skipped, rfl⟩ | ⟨_, _, state, formed, bytes, queued, calls⟩
  · have empty : data.data = [] := by
      rw [← List.length_eq_zero_iff, Chunk.length_data]
      simpa using skipped
    exact ⟨connected, wellFormed, [], by simp, rfl, by simp, by simp [empty]⟩
  · refine ⟨state.trans connected, formed, queued.map .queueinLoop ++
      [.append 0 data.len data.len], by simp [calls], ?_, ?_, bytes⟩
    · rw [accepted_append, accepted_queued]
      rfl
    · intro call membership
      rcases List.mem_append.mp membership with inQueued | inAppend
      · exact inRange_queued queued call inQueued
      · rw [List.mem_singleton.mp inAppend]
        exact ⟨Int.le_refl 0, by simp⟩

/-- The five outcomes of a direct write: all taken; a short write whose tail is
dropped; a short write after which the first bytes are kept again; nothing
taken; would-block, after which the byte in front of `data` is copied. -/
theorem sendinLoop_direct {s t : Session Ptr} {data : Chunk} {answer : WriteResult}
    (connected : s.connection.state = .kConnected)
    (wellFormed : s.connection.outputBuffer.WellFormed)
    (valid : answer.Valid data.len)
    (direct : s.writesDirectly = true)
    (returned : s.sendinLoop data answer = .ok t) :
    t.connection.state = .kConnected ∧ t.connection.outputBuffer.WellFormed ∧
    ∃ made kept, t.calls = s.calls ++ made ∧
      accepted made = data.data.take answer.returned.toNat ∧
      t.connection.outputBuffer.readable =
        s.connection.outputBuffer.readable ++ kept ∧
      ((kept = [] ∧ (answer.returned = data.len ∨ data.len = 0) ∧
          ∀ call ∈ made, call.InRange) ∨
        (kept = [] ∧ 0 < answer.returned ∧ answer.returned < data.len ∧
          answer.errno ≠ EWOULDBLOCK) ∨
        (kept = data.bytes 0 (data.len - answer.returned.toNat) ∧ 0 < answer.returned ∧
          answer.returned < data.len ∧ answer.errno = EWOULDBLOCK ∧
          ∀ call ∈ made, call.InRange) ∨
        (kept = data.data ∧ answer.returned = 0 ∧ ∀ call ∈ made, call.InRange) ∨
        (0 < data.len ∧ answer.returned = -1 ∧ ∃ call ∈ made, ¬ call.InRange)) := by
  simp only [sendinLoop, connected, direct, reduceCtorEq, if_false, if_true] at returned
  obtain ⟨same, ⟨queued, calls⟩, blocked, counted⟩ := s.writeDirectly_law valid
  generalize s.writeDirectly data answer = written at *
  obtain ⟨middle, progress⟩ := written
  simp only at same calls blocked counted returned
  have remainingFits : progress.remaining ≤ data.len := by
    by_cases positive : 0 < answer.returned
    · rw [(counted positive).1]
      exact Nat.sub_le _ _
    · simp [blocked (by omega)]
  have tookBytes : ∀ call ∈ Call.write data.data answer :: queued.map .queueinLoop,
      call.InRange := by
    intro call membership
    rcases List.mem_cons.mp membership with rfl | inQueued
    · trivial
    · exact inRange_queued queued call inQueued
  have took : accepted (.write data.data answer :: queued.map .queueinLoop) =
      data.data.take answer.returned.toNat := by
    rw [← List.singleton_append, accepted_append, accepted_queued]
    simp [accepted, Call.accepted]
  generalize Call.write data.data answer :: queued.map .queueinLoop = first at *
  rcases bufferRemaining_law (by rw [same]; exact wellFormed) remainingFits returned with
    ⟨skipped, rfl⟩ | ⟨noFault, remains, state, formed, bytes, more, laterCalls⟩
  · refine ⟨by rw [same]; exact connected, by rw [same]; exact wellFormed, _, [], calls, took,
      by simp [same], ?_⟩
    by_cases positive : 0 < answer.returned
    · obtain ⟨remaining, verdict⟩ := counted positive
      by_cases rest : 0 < progress.remaining
      · have stale : answer.errno ≠ EWOULDBLOCK := by
          have fault := skipped.resolve_right (by omega)
          rw [(verdict rest).2] at fault
          simpa using fault
        exact .inr (.inl ⟨rfl, positive, by omega, stale⟩)
      · have bounded : answer.returned ≤ data.len := by
          rcases valid with failed | ⟨_, bounded⟩ <;> omega
        exact .inl ⟨rfl, .inl (by omega), tookBytes⟩
    · rw [blocked (by omega)] at skipped
      exact .inl ⟨rfl, .inr (by simpa using skipped), tookBytes⟩
  · let later : List Call := more.map .queueinLoop ++
      [.append progress.nwrote progress.remaining data.len]
    have made : t.calls = s.calls ++ (first ++ later) := by
      simp [later, laterCalls, calls]
    have madeBytes : accepted (first ++ later) = data.data.take answer.returned.toNat := by
      rw [accepted_append, took, accepted_append, accepted_queued]
      simp [accepted, Call.accepted]
    have inRange : 0 ≤ progress.nwrote ∧ progress.nwrote + progress.remaining ≤ data.len →
        ∀ call ∈ first ++ later, call.InRange := by
      intro range call membership
      rcases List.mem_append.mp membership with inFirst | inLater
      · exact tookBytes call inFirst
      · rcases List.mem_append.mp inLater with inQueued | inAppend
        · exact inRange_queued more call inQueued
        · rw [List.mem_singleton.mp inAppend]
          exact range
    refine ⟨state.trans (by rw [same]; exact connected), formed, _, _, made, madeBytes,
      by rw [bytes, same], ?_⟩
    by_cases positive : 0 < answer.returned
    · obtain ⟨remaining, verdict⟩ := counted positive
      obtain ⟨offset, fault⟩ := verdict remains
      rw [fault] at noFault
      refine .inr (.inr (.inl ⟨by rw [offset, remaining], positive, by omega,
        by simpa using noFault, inRange ?_⟩))
      rw [offset]
      omega
    · have unsent := blocked (by omega)
      have offset : progress.nwrote = answer.returned := by rw [unsent]
      have remaining : progress.remaining = data.len := by rw [unsent]
      rcases valid with failed | ⟨nonnegative, _⟩
      · refine .inr (.inr (.inr (.inr ⟨by omega, failed, _,
          List.mem_append_right first (List.mem_append_right _ (List.mem_singleton_self _)),
          ?_⟩)))
        simp [Call.InRange, offset, failed]
      · have zero : answer.returned = 0 := by omega
        refine .inr (.inr (.inr (.inl ⟨?_, zero, inRange (by omega)⟩)))
        rw [offset, remaining, zero]
        rfl

/-- Draining leaves the output alone: what it calls writes and copies nothing. -/
theorem outputDrained_calls {s t : Session Ptr}
    (returned : s.outputDrained = .ok t) :
    t.connection.state = s.connection.state ∧
    t.connection.outputBuffer = s.connection.outputBuffer ∧
    ∃ made, t.calls = s.calls ++ made ∧ accepted made = [] ∧
      ∀ call ∈ made, call.InRange := by
  obtain ⟨connection, queued, shut, calls, closing⟩ := outputDrained_law returned
  refine ⟨by rw [connection], by rw [connection], queued.map .queueinLoop ++ shut, ?_, ?_, ?_⟩
  · rw [calls, List.append_assoc]
  · rcases closing with rfl | ⟨_, rfl⟩
    · rw [List.append_nil, accepted_queued]
    · rw [accepted_append, accepted_queued]
      rfl
  · intro call made
    rcases List.mem_append.mp made with functor | shutting
    · exact inRange_queued queued call functor
    · rcases closing with rfl | ⟨_, rfl⟩
      · cases shutting
      · rw [List.mem_singleton.mp shutting]
        trivial

/-- In every state `handleWrite` moves the front of the output to the socket. -/
theorem handleWrite_sends {s t : Session Ptr} {answer : WriteResult}
    (wellFormed : s.connection.outputBuffer.WellFormed)
    (returned : s.handleWrite answer = .ok t) :
    t.connection.state = s.connection.state ∧ t.connection.outputBuffer.WellFormed ∧
    ∃ made count, t.calls = s.calls ++ made ∧ (∀ call ∈ made, call.InRange) ∧
      accepted made = s.connection.outputBuffer.readable.take count ∧
      t.connection.outputBuffer.readable =
        s.connection.outputBuffer.readable.drop count := by
  have sent : accepted [Call.write s.connection.outputBuffer.readable answer] =
      s.connection.outputBuffer.readable.take answer.returned.toNat := by
    simp [accepted, Call.accepted]
  obtain ⟨formed, rest⟩ := wellFormed.retrieve answer.returned.toNat
  have inRange : ∀ call ∈ [Call.write s.connection.outputBuffer.readable answer],
      call.InRange := by
    intro call made
    rw [List.mem_singleton.mp made]
    trivial
  unfold handleWrite at returned
  split at returned
  · simp only [Buffer.writeFd_fst] at returned
    split at returned
    next positive =>
      split at returned
      next drained =>
        obtain ⟨state, output, more, calls, nothing, inRangeAfter⟩ :=
          outputDrained_calls returned
        rw [output]
        refine ⟨state, formed, [.write s.connection.outputBuffer.readable answer] ++ more,
          answer.returned.toNat, ?_, ?_, ?_, rest⟩
        · rw [calls, setOutput, record, List.append_assoc]
        · intro call made
          rcases List.mem_append.mp made with writing | later
          · exact inRange call writing
          · exact inRangeAfter call later
        · rw [accepted_append, nothing, List.append_nil, sent]
      next remains =>
        cases returned
        exact ⟨rfl, formed, _, answer.returned.toNat, rfl, inRange, sent, rest⟩
    next blocked =>
      cases returned
      have nothing : answer.returned.toNat = 0 := Int.toNat_of_nonpos (Int.not_lt.mp blocked)
      refine ⟨rfl, wellFormed, _, 0, rfl, inRange, ?_, rfl⟩
      rw [sent, nothing]
  · cases returned
    exact ⟨rfl, wellFormed, [], 0, (List.append_nil _).symm, by simp, rfl, rfl⟩

end Session

/-! ## Runs -/

/-- A connection in a run, with the data passed to `sendinLoop` so far. -/
structure Outgoing (Ptr : Type) where
  session : Session Ptr
  passed : List Byte

/-- A call on the loop thread, with the kernel's answer to its `::write`. -/
inductive Transmission where
  | sendinLoop (data : Chunk) (answer : WriteResult)
  | handleWrite (answer : WriteResult)

/-- Answers of a healthy socket: a count, with any old `errno`, or would-block. -/
def KernelMay (answer : WriteResult) (requested : Nat) : Prop :=
  answer.Valid requested ∧ (answer.returned = -1 → answer.errno = EWOULDBLOCK)

instance (answer : WriteResult) (requested : Nat) : Decidable (KernelMay answer requested) :=
  inferInstanceAs (Decidable (_ ∧ _))

namespace Outgoing

variable {Ptr : Type}

/-- The bytes the kernel accepted and the bytes waiting are what was waiting at
first and what was passed since; only bytes of the passed data were copied. -/
structure Intact (backlog : List Byte) (state : Outgoing Ptr) : Prop where
  stream : accepted state.session.calls ++ state.session.connection.outputBuffer.readable =
    backlog ++ state.passed
  contained : ∀ call ∈ state.session.calls, call.InRange

instance (backlog : List Byte) (state : Outgoing Ptr) : Decidable (Intact backlog state) :=
  decidable_of_iff
    (accepted state.session.calls ++ state.session.connection.outputBuffer.readable =
        backlog ++ state.passed ∧ ∀ call ∈ state.session.calls, call.InRange)
    ⟨fun holds => ⟨holds.1, holds.2⟩, fun intact => ⟨intact.stream, intact.contained⟩⟩

/-- A direct write takes nothing or everything, or is short while `errno` holds an
old `EWOULDBLOCK` and the first bytes of the chunk happen to equal its tail. -/
def KeepsTail (state : Outgoing Ptr) : Transmission → Prop
  | .sendinLoop data answer => state.session.writesDirectly = true →
      data.len = 0 ∨ answer.returned = 0 ∨ answer.returned = data.len ∨
        (0 < answer.returned ∧ answer.errno = EWOULDBLOCK ∧
          data.bytes 0 (data.len - answer.returned.toNat) =
            data.bytes answer.returned.toNat (data.len - answer.returned.toNat))
  | .handleWrite _ => True

instance (state : Outgoing Ptr) : DecidablePred state.KeepsTail
  | .sendinLoop _ _ => inferInstanceAs (Decidable (_ → _))
  | .handleWrite _ => isTrue trivial

variable [DecidableEq Ptr]

/-- A step is a call that returns under an answer the kernel may give. -/
def transmissions : Machine (Outgoing Ptr) Transmission where
  step state
    | .sendinLoop data answer =>
        if KernelMay answer data.len then
          match state.session.sendinLoop data answer with
          | .ok next => some ⟨next, state.passed ++ data.data⟩
          | .error _ => none
        else none
    | .handleWrite answer =>
        if KernelMay answer state.session.connection.outputBuffer.readableBytes then
          match state.session.handleWrite answer with
          | .ok next => some ⟨next, state.passed⟩
          | .error _ => none
        else none

theorem step_sendinLoop {state next : Outgoing Ptr} {data : Chunk} {answer : WriteResult}
    (stepped : transmissions.step state (.sendinLoop data answer) = some next) :
    KernelMay answer data.len ∧ state.session.sendinLoop data answer = .ok next.session ∧
      next.passed = state.passed ++ data.data := by
  simp only [transmissions] at stepped
  split at stepped
  next may =>
    split at stepped
    next session returned =>
      cases stepped
      exact ⟨may, returned, rfl⟩
    next => cases stepped
  next => cases stepped

theorem step_handleWrite {state next : Outgoing Ptr} {answer : WriteResult}
    (stepped : transmissions.step state (.handleWrite answer) = some next) :
    KernelMay answer state.session.connection.outputBuffer.readableBytes ∧
      state.session.handleWrite answer = .ok next.session ∧ next.passed = state.passed := by
  simp only [transmissions] at stepped
  split at stepped
  next may =>
    split at stepped
    next session returned =>
      cases stepped
      exact ⟨may, returned, rfl⟩
    next => cases stepped
  next => cases stepped

/-- What a run keeps as long as the stream is intact. -/
structure Sound (backlog : List Byte) (state : Outgoing Ptr) : Prop where
  connected : state.session.connection.state = .kConnected
  wellFormed : state.session.connection.outputBuffer.WellFormed
  intact : state.Intact backlog

omit [DecidableEq Ptr] in
/-- An intact stream extended by `made` and `kept` is intact exactly when the
bytes taken and kept are the bytes passed. -/
theorem Intact.extend_iff {backlog : List Byte} {state next : Outgoing Ptr}
    {made : List Call} {kept passed : List Byte}
    (intact : state.Intact backlog)
    (calls : next.session.calls = state.session.calls ++ made)
    (bytes : next.session.connection.outputBuffer.readable =
      state.session.connection.outputBuffer.readable ++ kept)
    (separate : accepted made = [] ∨ state.session.connection.outputBuffer.readable = [])
    (more : next.passed = state.passed ++ passed) :
    next.Intact backlog ↔ accepted made ++ kept = passed ∧ ∀ call ∈ made, call.InRange := by
  have stream : accepted next.session.calls ++
      next.session.connection.outputBuffer.readable =
        (backlog ++ state.passed) ++ (accepted made ++ kept) := by
    rw [calls, bytes, accepted_append, ← intact.stream]
    rcases separate with nothing | nothing <;> simp [nothing]
  constructor
  · intro holds
    refine ⟨?_, fun call membership => holds.contained call (by simp [calls, membership])⟩
    have whole := holds.stream
    rw [stream, more, ← List.append_assoc backlog] at whole
    exact List.append_cancel_left whole
  · rintro ⟨bytesPassed, inRange⟩
    refine ⟨by rw [stream, bytesPassed, more, List.append_assoc], ?_⟩
    intro call membership
    rw [calls] at membership
    rcases List.mem_append.mp membership with before | after
    · exact intact.contained call before
    · exact inRange call after

theorem sendinLoop_intact_iff {backlog : List Byte} {state next : Outgoing Ptr}
    {data : Chunk} {answer : WriteResult} (sound : state.Sound backlog)
    (stepped : transmissions.step state (.sendinLoop data answer) = some next) :
    next.session.connection.state = .kConnected ∧
      next.session.connection.outputBuffer.WellFormed ∧
      (next.Intact backlog ↔ state.KeepsTail (.sendinLoop data answer)) := by
  obtain ⟨may, returned, more⟩ := step_sendinLoop stepped
  cases direct : state.session.writesDirectly with
  | false =>
      rcases Session.sendinLoop_buffers sound.connected sound.wellFormed direct returned with
        ⟨connected, formed, made, calls, nothing, inRange, bytes⟩
      refine ⟨connected, formed, ?_⟩
      rw [sound.intact.extend_iff calls bytes (.inl nothing) more]
      exact ⟨fun _ now => by simp [direct] at now, fun _ => ⟨by rw [nothing, List.nil_append],
        inRange⟩⟩
  | true =>
      have empty : state.session.connection.outputBuffer.readable = [] := by
        rw [sound.wellFormed.readable_eq_nil_iff]
        simp only [Session.writesDirectly, Bool.and_eq_true, beq_iff_eq] at direct
        exact direct.2
      rcases Session.sendinLoop_direct sound.connected sound.wellFormed may.1 direct returned with
        ⟨connected, formed, made, kept, calls, took, bytes, outcome⟩
      refine ⟨connected, formed, ?_⟩
      rw [sound.intact.extend_iff calls bytes (.inr empty) more, took]
      simp only [KeepsTail, direct, true_imp_iff]
      rcases outcome with ⟨rfl, all, inRange⟩ | ⟨rfl, positive, short, stale⟩ |
        ⟨rfl, positive, short, blocked, inRange⟩ | ⟨rfl, nothing, inRange⟩ |
        ⟨nonempty, failed, call, membership, outside⟩
      · have whole : data.data.take answer.returned.toNat = data.data :=
          List.take_of_length_le (by rw [Chunk.length_data]; omega)
        exact ⟨fun _ => by omega, fun _ => ⟨by rw [whole, List.append_nil], inRange⟩⟩
      · constructor
        · rintro ⟨bytesPassed, _⟩
          have lengths := congrArg List.length bytesPassed
          simp only [List.append_nil, List.length_take, Chunk.length_data] at lengths
          omega
        · rintro (_ | _ | _ | ⟨_, blocked, _⟩)
          · omega
          · omega
          · omega
          · exact absurd blocked stale
      · have split := List.take_append_drop answer.returned.toNat data.data
        rw [Chunk.drop_data] at split
        constructor
        · rintro ⟨bytesPassed, _⟩
          refine .inr (.inr (.inr ⟨positive, blocked, ?_⟩))
          exact List.append_cancel_left (bytesPassed.trans split.symm)
        · rintro (_ | _ | _ | ⟨_, _, same⟩)
          · omega
          · omega
          · omega
          · exact ⟨by rw [same, split], inRange⟩
      · exact ⟨fun _ => .inr (.inl nothing), fun _ => ⟨by simp [nothing], inRange⟩⟩
      · constructor
        · rintro ⟨_, inRange⟩
          exact absurd (inRange call membership) outside
        · rintro (_ | _ | _ | ⟨_, _, _⟩) <;> omega

theorem handleWrite_intact {backlog : List Byte} {state next : Outgoing Ptr}
    {answer : WriteResult} (sound : state.Sound backlog)
    (stepped : transmissions.step state (.handleWrite answer) = some next) :
    next.Sound backlog := by
  obtain ⟨_, returned, same⟩ := step_handleWrite stepped
  obtain ⟨state, formed, made, count, calls, inRange, took, bytes⟩ :=
    Session.handleWrite_sends sound.wellFormed returned
  refine ⟨state.trans sound.connected, formed, ?_, ?_⟩
  · rw [calls, bytes, accepted_append, took, List.append_assoc, List.take_append_drop, same]
    exact sound.intact.stream
  · intro call membership
    rw [calls] at membership
    rcases List.mem_append.mp membership with before | after
    · exact sound.intact.contained call before
    · exact inRange call after

/-- From any connected connection, the stream stays intact throughout a run
exactly when every direct write of the run keeps the tail. -/
theorem stream_intact_iff_keepsTail (session : Session Ptr)
    (connected : session.connection.state = .kConnected)
    (wellFormed : session.connection.outputBuffer.WellFormed)
    (actions : List Transmission) :
    transmissions.Always (Intact session.connection.outputBuffer.readable)
        ⟨{ session with calls := [] }, []⟩ actions ↔
      transmissions.Guarded KeepsTail ⟨{ session with calls := [] }, []⟩ actions := by
  refine Machine.always_iff_guarded (Sound session.connection.outputBuffer.readable) ?_
    (fun _ sound => sound.intact) ?_ ⟨connected, wellFormed, by simp [accepted], by simp⟩
  · intro state action next sound keeps stepped
    cases action with
    | sendinLoop data answer =>
        obtain ⟨stays, formed, intact⟩ := sendinLoop_intact_iff sound stepped
        exact ⟨stays, formed, intact.mpr keeps⟩
    | handleWrite answer => exact handleWrite_intact sound stepped
  · intro state action next sound stepped intact
    cases action with
    | sendinLoop data answer => exact (sendinLoop_intact_iff sound stepped).2.2.mp intact
    | handleWrite answer => trivial

/-! ## A short and a blocked direct write -/

/-- The two bytes `ab`, with a zero byte in front of them. -/
def ab : Chunk where
  memory position := if position = 0 then 97 else if position = 1 then 98 else 0
  len := 2
  fits := by decide

def connected : Session Unit :=
  Session.make () { Connection.make 5 true false with state := .kConnected } Epoller.make

/-- When the kernel takes one byte of `ab` the other is lost; when it would block
the byte in front of `ab` is buffered. -/
theorem short_write_and_would_block_break_stream :
    ¬ transmissions.Always (Intact connected.connection.outputBuffer.readable)
        ⟨{ connected with calls := [] }, []⟩ [.sendinLoop ab ⟨1, 0⟩] ∧
    ¬ transmissions.Always (Intact connected.connection.outputBuffer.readable)
        ⟨{ connected with calls := [] }, []⟩ [.sendinLoop ab ⟨-1, EWOULDBLOCK⟩] := by
  decide +kernel

/-- A run of full, empty and buffered sends, drained by two writes. -/
theorem stream_intact_iff_keepsTail_drained :
    transmissions.Always (Intact connected.connection.outputBuffer.readable)
        ⟨{ connected with calls := [] }, []⟩
        [.sendinLoop ab ⟨2, 0⟩, .sendinLoop ab ⟨0, 0⟩, .sendinLoop ab ⟨0, 0⟩,
          .handleWrite ⟨3, 0⟩, .handleWrite ⟨1, 0⟩] :=
  (stream_intact_iff_keepsTail connected rfl Buffer.initial_wellFormed.1 _).mpr
    (by decide +kernel)

end Outgoing

end Lucky
