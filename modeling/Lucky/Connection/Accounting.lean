import Lucky.Connection.Quiet

/-!
# Accounting of the connection functions

What `sendinLoop` and `handleWrite` do, exactly: how many bytes enter and leave
`outputBuffer_`, which calls are made, and whether `filed_` is interested in
writing afterwards.
-/

namespace Lucky

open Systems

namespace Filed

theorem isWriting_eq_getLsbD (f : Filed) : f.isWriting = f.events.getLsbD 2 := by
  have single : kWriteEvent = BitVec.twoPow 32 2 := rfl
  rw [isWriting, single, BitVec.and_twoPow]
  cases f.events.getLsbD 2 <;> rfl

@[simp]
theorem isWriting_enableWriting (f : Filed) :
    (f.withEvents (f.events ||| kWriteEvent)).isWriting = true := by
  simp [isWriting_eq_getLsbD, withEvents, kWriteEvent, EPOLLOUT]

@[simp]
theorem isWriting_disableWriting (f : Filed) :
    (f.withEvents (f.events &&& ~~~kWriteEvent)).isWriting = false := by
  simp [isWriting_eq_getLsbD, withEvents, kWriteEvent, EPOLLOUT]

@[simp]
theorem isWriting_enableReading (f : Filed) :
    (f.withEvents (f.events ||| kReadEvent)).isWriting = f.isWriting := by
  simp [isWriting_eq_getLsbD, withEvents, kReadEvent, EPOLLIN, EPOLLPRI]

end Filed

namespace Session

variable {Ptr : Type}

def unread (s : Session Ptr) : Nat := s.connection.outputBuffer.readableBytes

def isWriting (s : Session Ptr) : Bool := s.connection.filed.isWriting

/-- `sendinLoop` calls `::write`. -/
def Direct (s : Session Ptr) : Prop :=
  s.connection.state ≠ .kDisconnected ∧ s.writesDirectly = true

instance (s : Session Ptr) : Decidable s.Direct := inferInstanceAs (Decidable (_ ∧ _))

/-- The number of bytes `sendinLoop` appends to `outputBuffer_`: after a count
below the length, the rest only while `errno` is `EWOULDBLOCK`. -/
def kept (s : Session Ptr) (data : Chunk) (answer : WriteResult) : Nat :=
  if s.connection.state = .kDisconnected then 0
  else if s.writesDirectly ∧ 0 < answer.returned then
    if answer.errno = EWOULDBLOCK then data.len - answer.returned.toNat else 0
  else data.len

/-- The `highWaterMarkCallback_` queued when `count` bytes are about to be appended. -/
def marks (s : Session Ptr) (count : Nat) : List Call :=
  if 0 < count ∧ s.unread < s.connection.highWaterMark ∧
      s.connection.highWaterMark ≤ s.unread + count ∧ s.connection.highWaterMarkCallback then
    [.queueinLoop (.highWaterMarkCallback (s.unread + count))]
  else
    []

def completion (s : Session Ptr) : List Call :=
  if s.connection.writeCompleteCallback then [.queueinLoop .writeCompleteCallback] else []

/-- The calls of the direct write. -/
def directCalls (s : Session Ptr) (data : Chunk) (answer : WriteResult) : List Call :=
  if s.Direct then
    .write data.data answer ::
      if 0 < answer.returned ∧ answer.returned = data.len then s.completion else []
  else
    []

def appends (offset : Int) (count len : Nat) : List Call :=
  if 0 < count then [.append offset count len] else []

/-- The effect of `sendinLoop`. -/
structure Sent (s t : Session Ptr) (data : Chunk) (answer : WriteResult) : Prop where
  frame : t.connection = { s.connection with
    filed := t.connection.filed, outputBuffer := t.connection.outputBuffer }
  wellFormed : t.connection.outputBuffer.WellFormed
  unread : t.unread = s.unread + s.kept data answer
  isWriting : t.isWriting = (s.isWriting || decide (0 < s.kept data answer))
  calls : ∃ offset, t.calls = s.calls ++ (s.directCalls data answer ++
    (s.marks (s.kept data answer) ++ appends offset (s.kept data answer) data.len))

/-- `handleWrite` empties `outputBuffer_`. -/
def Drains (s : Session Ptr) (answer : WriteResult) : Prop :=
  0 < answer.returned ∧ s.unread ≤ answer.returned.toNat

instance (s : Session Ptr) (answer : WriteResult) : Decidable (s.Drains answer) :=
  inferInstanceAs (Decidable (_ ∧ _))

def drainedCalls (s : Session Ptr) : List Call :=
  s.completion ++ if s.connection.state = .kDisconnecting then [.shutdownWrite] else []

/-- The effect of `handleWrite` on a connection interested in writing. -/
structure Flushed (s t : Session Ptr) (answer : WriteResult) : Prop where
  frame : t.connection = { s.connection with
    filed := t.connection.filed, outputBuffer := t.connection.outputBuffer }
  wellFormed : t.connection.outputBuffer.WellFormed
  unread : t.unread = s.unread - answer.returned.toNat
  isWriting : t.isWriting = !decide (s.Drains answer)
  calls : t.calls = s.calls ++ .write s.connection.outputBuffer.readable answer ::
    if s.Drains answer then s.drainedCalls else []

theorem unread_eq_length {s : Session Ptr}
    (wellFormed : s.connection.outputBuffer.WellFormed) :
    s.unread = s.connection.outputBuffer.readable.length :=
  wellFormed.length_readable.symm

theorem direct_unread {s : Session Ptr} (direct : s.Direct) :
    s.isWriting = false ∧ s.unread = 0 := by
  simpa [writesDirectly, isWriting, unread] using direct.2

theorem kept_of_direct {s : Session Ptr} {data : Chunk} {answer : WriteResult}
    (direct : s.Direct) : s.kept data answer =
      if 0 < answer.returned then
        if answer.errno = EWOULDBLOCK then data.len - answer.returned.toNat else 0
      else data.len := by
  simp only [kept, direct.1, direct.2, if_false, true_and]

theorem kept_of_not_direct {s : Session Ptr} {data : Chunk} {answer : WriteResult}
    (behind : ¬ s.Direct) : s.kept data answer =
      if s.connection.state = .kDisconnected then 0 else data.len := by
  by_cases closed : s.connection.state = .kDisconnected
  · simp only [kept, closed, if_true]
  · have buffers : ¬ s.writesDirectly = true := fun direct => behind ⟨closed, direct⟩
    simp only [kept, closed, if_false, if_neg (fun both => buffers (And.left both))]

/-- `sendinLoop` loses bytes: the connection is closed, or a direct write takes
some of them while `errno` is not `EWOULDBLOCK`. -/
def Loses (s : Session Ptr) (data : Chunk) (answer : WriteResult) : Prop :=
  (s.connection.state = .kDisconnected ∧ 0 < data.len) ∨
  (s.Direct ∧ 0 < answer.returned ∧ answer.returned < data.len ∧ answer.errno ≠ EWOULDBLOCK)

instance (s : Session Ptr) (data : Chunk) (answer : WriteResult) :
    Decidable (s.Loses data answer) :=
  inferInstanceAs (Decidable (_ ∨ _))

/-- The bytes `sendinLoop` has the kernel accept. -/
def taken (s : Session Ptr) (answer : WriteResult) : Nat :=
  if s.Direct then answer.returned.toNat else 0

theorem taken_add_kept {s : Session Ptr} {data : Chunk} {answer : WriteResult}
    (valid : answer.Valid data.len) :
    s.taken answer + s.kept data answer ≤ data.len ∧
      (s.taken answer + s.kept data answer = data.len ↔ ¬ s.Loses data answer) := by
  have counted : answer.returned.toNat ≤ data.len := by
    rcases valid with failed | ⟨_, most⟩ <;> omega
  by_cases direct : s.Direct
  · rw [kept_of_direct direct]
    simp only [taken, Loses, direct, direct.1, if_true, true_and, false_and, false_or]
    by_cases positive : 0 < answer.returned
    · by_cases blocked : answer.errno = EWOULDBLOCK
      · simp only [positive, blocked, ne_eq, not_true, and_false, not_false_iff, if_true, iff_true]
        omega
      · simp only [positive, blocked, ne_eq, not_false_iff, and_true, true_and, if_true, if_false]
        omega
    · simp only [positive, false_and, not_false_iff, if_false, iff_true]
      omega
  · rw [kept_of_not_direct direct]
    by_cases closed : s.connection.state = .kDisconnected
    · simp only [taken, Loses, direct, closed, if_true, if_false, true_and, false_and, or_false]
      omega
    · simp only [taken, Loses, direct, closed, if_false, false_and, or_false, not_false_iff,
        iff_true]
      omega

theorem marks_zero (s : Session Ptr) : s.marks 0 = [] := by
  simp [marks]

/-! ## `sendinLoop` -/

theorem checkHighWaterMark_eq {s : Session Ptr} {count : Nat}
    (wellFormed : s.connection.outputBuffer.WellFormed)
    (positive : 0 < count) (object : count ≤ maxSize) :
    s.checkHighWaterMark count = { s with calls := s.calls ++ s.marks count } := by
  have fits : s.unread + count < sizeModulus := by
    have short := wellFormed.length_lt
    have bounded := wellFormed.bounded
    have inside := wellFormed.inside
    have readableBytes := wellFormed.readableBytes_eq
    simp only [unread, maxSize, sizeModulus] at *
    omega
  unfold checkHighWaterMark marks
  dsimp only
  rw [unread] at *
  rw [sizeAdd_of_lt fits]
  by_cases crosses : s.connection.highWaterMark ≤
      s.connection.outputBuffer.readableBytes + count ∧
      s.connection.outputBuffer.readableBytes < s.connection.highWaterMark ∧
      s.connection.highWaterMarkCallback
  · rw [if_pos crosses, if_pos ⟨positive, crosses.2.1, crosses.1, crosses.2.2⟩]
    rfl
  · rw [if_neg crosses, if_neg (fun all => crosses ⟨all.2.2.1, all.2.1, all.2.2.2⟩),
      List.append_nil]

variable [DecidableEq Ptr]

/-- The second half of `sendinLoop` appends the remaining bytes unless a fault
has been noted. -/
theorem bufferRemaining_exact {s t : Session Ptr} {data : Chunk} {progress : Progress}
    {count : Nat} (wellFormed : s.connection.outputBuffer.WellFormed)
    (object : progress.remaining ≤ data.len)
    (counts : count = if progress.faultError then 0 else progress.remaining)
    (returned : s.bufferRemaining data progress = .ok t) :
    t.connection = { s.connection with
      filed := t.connection.filed, outputBuffer := t.connection.outputBuffer } ∧
    t.connection.outputBuffer.WellFormed ∧
    t.unread = s.unread + count ∧
    t.isWriting = (s.isWriting || decide (0 < count)) ∧
    t.calls = s.calls ++ (s.marks count ++ appends progress.nwrote count data.len) := by
  rcases bufferRemaining_cases wellFormed object returned with
    ⟨dropped, rfl⟩ | ⟨noFault, remains, output, appended, formed, bytes, rfl, finished⟩
  · have nothing : count = 0 := by
      rcases dropped with fault | zero
      · simp [counts, fault]
      · simp [counts, zero]
    subst nothing
    exact ⟨rfl, wellFormed, rfl, by simp, by simp [marks_zero, appends]⟩
  · have count_eq : count = progress.remaining := by simpa [noFault] using counts
    rw [checkHighWaterMark_eq wellFormed remains (Nat.le_trans object data.fits)] at finished
    rw [count_eq]
    have grown : output.readableBytes = s.unread + progress.remaining := by
      rw [← formed.length_readable, bytes, List.length_append, Chunk.length_bytes,
        unread_eq_length wellFormed]
    simp only [remains, decide_true, Bool.or_true, appends, if_true]
    split at finished
    next writing =>
      subst finished
      exact ⟨rfl, formed, grown, writing, by simp [record, setOutput]⟩
    next =>
      obtain ⟨_, calls, connection⟩ := onFiled_setEvents rfl finished
      simp only [unread, isWriting, connection, calls]
      exact ⟨rfl, formed, grown, Filed.isWriting_enableWriting _, by simp [record, setOutput]⟩

omit [DecidableEq Ptr] in
theorem writeDirectly_exact {s : Session Ptr} {data : Chunk} {answer : WriteResult}
    (direct : s.Direct) (valid : answer.Valid data.len) :
    (s.writeDirectly data answer).1 = { s with calls := s.calls ++ s.directCalls data answer } ∧
    (s.writeDirectly data answer).2.remaining ≤ data.len ∧
    s.kept data answer = if (s.writeDirectly data answer).2.faultError then 0
      else (s.writeDirectly data answer).2.remaining := by
  have object := data.fits
  unfold writeDirectly directCalls kept
  simp only [direct, direct.1, direct.2, if_false, if_true, true_and, gt_iff_lt]
  by_cases positive : 0 < answer.returned
  · have counted : answer.returned.toNat ≤ data.len := by
      rcases valid with failed | ⟨_, bounded⟩ <;> omega
    have rest : sizeSub data.len answer.returned.toNat = data.len - answer.returned.toNat :=
      sizeSub_of_le counted (by simp only [maxSize, sizeModulus] at *; omega)
    have complete : data.len - answer.returned.toNat = 0 ↔ answer.returned = data.len := by
      omega
    simp only [positive, if_true, true_and, rest, complete, completion]
    by_cases all : answer.returned = data.len
    · have nothing : data.len - answer.returned.toNat = 0 := complete.mpr all
      by_cases set : s.connection.writeCompleteCallback
      · simp [all, set, record]
      · simp [all, set, record]
    · simp only [all, if_false, false_and, record]
      refine ⟨trivial, Nat.sub_le _ _, ?_⟩
      by_cases blocked : answer.errno = EWOULDBLOCK
      · simp [blocked]
      · simp [blocked]
  · simp [positive, record]

/-- `sendinLoop` keeps `kept` bytes. -/
theorem sendinLoop_sent {s t : Session Ptr} {data : Chunk} {answer : WriteResult}
    (wellFormed : s.connection.outputBuffer.WellFormed)
    (valid : answer.Valid data.len)
    (returned : s.sendinLoop data answer = .ok t) : Sent s t data answer := by
  by_cases live : s.connection.state = .kDisconnected
  · simp only [sendinLoop, live, if_true] at returned
    cases returned
    have nothing : s.kept data answer = 0 := by simp [kept, live]
    refine ⟨rfl, wellFormed, by rw [nothing]; rfl, by simp [nothing], 0, ?_⟩
    simp [nothing, directCalls, Direct, live, marks_zero, appends]
  · by_cases direct : s.writesDirectly
    · obtain ⟨written, object, counts⟩ := writeDirectly_exact ⟨live, direct⟩ valid
      simp only [sendinLoop, live, direct, if_false, if_true, written] at returned
      obtain ⟨frame, formed, unread, writing, calls⟩ := bufferRemaining_exact
        (s := { s with calls := s.calls ++ s.directCalls data answer })
        wellFormed object counts returned
      refine ⟨frame, formed, unread, writing, (s.writeDirectly data answer).2.nwrote, ?_⟩
      rw [calls, List.append_assoc]
      rfl
    · have counts : s.kept data answer = if false = true then 0 else data.len := by
        simp [kept, live, direct]
      simp only [sendinLoop, live, direct, if_false, Bool.false_eq_true] at returned
      obtain ⟨frame, formed, unread, writing, calls⟩ :=
        bufferRemaining_exact wellFormed (Nat.le_refl _) counts returned
      refine ⟨frame, formed, unread, writing, 0, ?_⟩
      rw [calls]
      simp [directCalls, Direct, live, direct]

/-! ## `handleWrite` -/

theorem outputDrained_exact {s t : Session Ptr} (returned : s.outputDrained = .ok t) :
    t.connection = { s.connection with filed := t.connection.filed } ∧
    t.isWriting = false ∧ t.calls = s.calls ++ s.drainedCalls := by
  obtain ⟨disabled, called, finished⟩ := bind_eq_ok.mp returned
  obtain ⟨_, calls, connection⟩ := onFiled_setEvents rfl called
  have silent : disabled.isWriting = false := by
    simp only [isWriting, connection, Filed.isWriting_disableWriting]
  have notified : (if disabled.connection.writeCompleteCallback then
      disabled.record (.queueinLoop .writeCompleteCallback) else disabled) =
      { disabled with calls := s.calls ++ s.completion } := by
    have same : disabled.connection.writeCompleteCallback =
        s.connection.writeCompleteCallback := by rw [connection]
    rw [← calls, same, completion]
    split
    · rfl
    · rw [List.append_nil]
  have state : disabled.connection.state = s.connection.state := by rw [connection]
  dsimp only at finished
  rw [notified] at finished
  cases finished
  simp only [state, drainedCalls]
  split
  next =>
    have silent' : disabled.connection.filed.isWriting = false := silent
    simp only [shutdownInLoop, silent', Bool.not_false, if_true, record]
    exact ⟨by rw [connection], silent, List.append_assoc _ _ _⟩
  next =>
    exact ⟨by rw [connection], silent, by rw [List.append_nil]⟩

theorem handleWrite_flushed {s t : Session Ptr} {answer : WriteResult}
    (wellFormed : s.connection.outputBuffer.WellFormed)
    (writing : s.isWriting = true)
    (returned : s.handleWrite answer = .ok t) : Flushed s t answer := by
  have formed := (wellFormed.retrieve answer.returned.toNat).1
  have rest : (s.connection.outputBuffer.retrieve answer.returned.toNat).readableBytes =
      s.unread - answer.returned.toNat := by
    rw [← formed.length_readable, (wellFormed.retrieve _).2, List.length_drop,
      unread_eq_length wellFormed]
  have interested : s.connection.filed.isWriting = true := writing
  simp only [handleWrite, interested, if_true, Buffer.writeFd_fst, gt_iff_lt, setOutput, record,
    rest] at returned
  split at returned
  next positive =>
    split at returned
    next empty =>
      have drains : s.Drains answer := ⟨positive, by omega⟩
      obtain ⟨frame, silent, calls⟩ := outputDrained_exact returned
      refine ⟨by rw [frame], by rw [frame]; exact formed, ?_, by simp [silent, drains], ?_⟩
      · rw [unread, frame]
        exact rest
      · rw [calls, if_pos drains, List.append_assoc]
        rfl
    next remains =>
      have stays : ¬ s.Drains answer := fun drains => remains (by have := drains.2; omega)
      cases returned
      exact ⟨rfl, formed, rest, by rw [decide_eq_false stays]; exact writing, by simp [stays]⟩
  next blocked =>
    have stays : ¬ s.Drains answer := fun drains => blocked drains.1
    cases returned
    refine ⟨rfl, wellFormed, ?_, by rw [decide_eq_false stays]; exact writing, by simp [stays]⟩
    have nothing : answer.returned.toNat = 0 := by omega
    rw [nothing]
    rfl

theorem handleWrite_idle {s t : Session Ptr} {answer : WriteResult}
    (idle : s.isWriting = false) (returned : s.handleWrite answer = .ok t) : t = s := by
  have uninterested : s.connection.filed.isWriting = false := idle
  simp only [handleWrite, uninterested, Bool.false_eq_true, if_false] at returned
  exact (Except.ok.inj returned).symm

/-! ## Write interest -/

/-- `filed_` is interested in writing exactly when `outputBuffer_` holds bytes. -/
def Interested (s : Session Ptr) : Prop := s.isWriting = true ↔ 0 < s.unread

omit [DecidableEq Ptr] in
theorem Interested.idle_iff {s : Session Ptr} (interested : s.Interested) :
    s.isWriting = false ↔ s.unread = 0 := by
  unfold Interested at interested
  rw [← Bool.not_eq_true, interested, Nat.not_lt, Nat.le_zero]

omit [DecidableEq Ptr] in
theorem Sent.interested {s t : Session Ptr} {data : Chunk} {answer : WriteResult}
    (sent : Sent s t data answer) (interested : s.Interested) : t.Interested := by
  unfold Interested at *
  rw [sent.isWriting, sent.unread, Bool.or_eq_true, decide_eq_true_iff, interested]
  omega

omit [DecidableEq Ptr] in
theorem Flushed.interested {s t : Session Ptr} {answer : WriteResult}
    (flushed : Flushed s t answer) (busy : 0 < s.unread) : t.Interested := by
  unfold Interested
  rw [flushed.isWriting, flushed.unread, Bool.not_eq_true', decide_eq_false_iff_not, Drains]
  omega

omit [DecidableEq Ptr] in
theorem constructed_idle (ptr : Ptr) (fd mark : Nat)
    (writeCompleteCallback highWaterMarkCallback : Bool) (epoller : Epoller Ptr) :
    let s := constructed ptr fd mark writeCompleteCallback highWaterMarkCallback epoller
    s.connection.outputBuffer.WellFormed ∧ s.unread = 0 ∧ s.Interested := by
  obtain ⟨wellFormed, bytes⟩ := Buffer.initial_wellFormed
  have empty : Buffer.initial.readableBytes = 0 := wellFormed.readable_eq_nil_iff.mp bytes
  have idle : (Filed.make fd).isWriting = false := Filed.isWriting_of_none rfl
  refine ⟨wellFormed, empty, ?_⟩
  simp [Interested, isWriting, unread, constructed, make, Connection.make, empty, idle]

end Session

end Lucky
