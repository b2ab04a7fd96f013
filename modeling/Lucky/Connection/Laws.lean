import Lucky.Buffer.Laws
import Lucky.Connection.Session
import Lucky.Systems.Fallible

/-!
# Laws of the connection functions

What each function may change, stated once: calls on `filed_` leave the rest of
the connection alone, and `sendinLoop` keeps either nothing or one range
relative to `data`.
-/

namespace Lucky

open Systems

@[simp]
theorem Chunk.length_bytes (chunk : Chunk) (offset : Int) (count : Nat) :
    (chunk.bytes offset count).length = count := by
  simp [Chunk.bytes]

theorem Chunk.length_data (chunk : Chunk) : chunk.data.length = chunk.len :=
  chunk.length_bytes 0 chunk.len

namespace Session

variable {Ptr : Type}

theorem onFiled_eq_ok {s t : Session Ptr}
    {call : Epoller Ptr → Ptr → Filed → Except Fault (Epoller Ptr × Filed)} :
    s.onFiled call = .ok t ↔
      ∃ epoller filed, call s.epoller s.ptr s.connection.filed = .ok (epoller, filed) ∧
        t = { s with epoller := epoller, connection := { s.connection with filed := filed } } := by
  unfold onFiled
  rw [bind_eq_ok]
  constructor
  · rintro ⟨⟨epoller, filed⟩, called, returned⟩
    exact ⟨epoller, filed, called, (Except.ok.inj returned).symm⟩
  · rintro ⟨epoller, filed, called, rfl⟩
    exact ⟨(epoller, filed), called, rfl⟩

/-- A call on `filed_` changes nothing else in the connection. -/
theorem onFiled_frame {s t : Session Ptr}
    {call : Epoller Ptr → Ptr → Filed → Except Fault (Epoller Ptr × Filed)}
    (returned : s.onFiled call = .ok t) :
    t.calls = s.calls ∧ t.connection = { s.connection with filed := t.connection.filed } := by
  obtain ⟨epoller, filed, _, rfl⟩ := onFiled_eq_ok.mp returned
  exact ⟨rfl, rfl⟩

theorem checkHighWaterMark_frame (s : Session Ptr) (remaining : Nat) :
    (s.checkHighWaterMark remaining).connection = s.connection ∧
      ∃ queued : List Queued, (s.checkHighWaterMark remaining).calls =
        s.calls ++ queued.map .queueinLoop := by
  unfold checkHighWaterMark
  dsimp only
  split
  · exact ⟨rfl, [_], rfl⟩
  · exact ⟨rfl, [], by simp⟩

variable [DecidableEq Ptr]

/-- The two outcomes of the second half of `sendinLoop`. -/
theorem bufferRemaining_cases {s t : Session Ptr} {data : Chunk} {progress : Progress}
    (wellFormed : s.connection.outputBuffer.WellFormed)
    (object : progress.remaining ≤ data.len)
    (returned : s.bufferRemaining data progress = .ok t) :
    ((progress.faultError = true ∨ progress.remaining = 0) ∧ t = s) ∨
    (progress.faultError = false ∧ 0 < progress.remaining ∧ ∃ output appended,
      output.WellFormed ∧
      output.readable = s.connection.outputBuffer.readable ++
        data.bytes progress.nwrote progress.remaining ∧
      appended = ((s.checkHighWaterMark progress.remaining).setOutput output).record
        (.append progress.nwrote progress.remaining data.len) ∧
      (if s.connection.filed.isWriting then t = appended
        else appended.onFiled Filed.enableWriting = .ok t)) := by
  unfold bufferRemaining at returned
  split at returned
  next keeps =>
    right
    simp only [Bool.not_eq_eq_eq_not, Bool.not_true] at keeps
    refine ⟨keeps.1, keeps.2, ?_⟩
    obtain ⟨output, appended, finished⟩ := bind_eq_ok.mp returned
    have same := (s.checkHighWaterMark_frame progress.remaining).1
    rw [mapError_eq_ok, same] at appended
    have lengthFits : (data.bytes progress.nwrote progress.remaining).length ≤ maxSize := by
      rw [Chunk.length_bytes]
      exact Nat.le_trans object data.fits
    have bytes : output.WellFormed ∧ output.readable =
        s.connection.outputBuffer.readable ++ data.bytes progress.nwrote progress.remaining := by
      rcases wellFormed.append (wellFormed.fits lengthFits) with
        ⟨next, succeeded, formed, contents⟩ | ⟨raised, _⟩
      · rw [succeeded] at appended
        cases appended
        exact ⟨formed, contents⟩
      · rw [raised] at appended
        cases appended
    refine ⟨output, _, bytes.1, bytes.2, rfl, ?_⟩
    simp only [record, setOutput, same] at finished ⊢
    by_cases writing : s.connection.filed.isWriting
    · simp only [writing, Bool.not_true, Bool.false_eq_true, if_false, if_true] at finished ⊢
      exact (Except.ok.inj finished).symm
    · simp only [writing, Bool.not_false, Bool.false_eq_true, if_false, if_true] at finished ⊢
      exact finished
  next drops =>
    left
    cases returned
    refine ⟨?_, rfl⟩
    simp only [Bool.not_eq_eq_eq_not, Bool.not_true, not_and, Nat.not_lt] at drops
    cases fault : progress.faultError with
    | true => exact .inl rfl
    | false => exact .inr (Nat.le_zero.mp (drops fault))

/-- What `sendinLoop` keeps for later: nothing, or a range relative to `data`
that is appended to `outputBuffer_`. -/
theorem bufferRemaining_law {s t : Session Ptr} {data : Chunk} {progress : Progress}
    (wellFormed : s.connection.outputBuffer.WellFormed)
    (object : progress.remaining ≤ data.len)
    (returned : s.bufferRemaining data progress = .ok t) :
    ((progress.faultError = true ∨ progress.remaining = 0) ∧ t = s) ∨
    (progress.faultError = false ∧ 0 < progress.remaining ∧
      t.connection.state = s.connection.state ∧
      t.connection.outputBuffer.WellFormed ∧
      t.connection.outputBuffer.readable = s.connection.outputBuffer.readable ++
        data.bytes progress.nwrote progress.remaining ∧
      ∃ queued : List Queued, t.calls = s.calls ++ queued.map .queueinLoop ++
        [.append progress.nwrote progress.remaining data.len]) := by
  rcases bufferRemaining_cases wellFormed object returned with
    dropped | ⟨noFault, remains, output, appended, formed, bytes, rfl, finished⟩
  · exact .inl dropped
  · obtain ⟨same, queued, calls⟩ := s.checkHighWaterMark_frame progress.remaining
    refine .inr ⟨noFault, remains, ?_⟩
    split at finished
    · subst finished
      refine ⟨?_, formed, bytes, queued, ?_⟩
      · simp only [record, setOutput, same]
      · simp only [record, setOutput, calls]
    · obtain ⟨sameCalls, sameConnection⟩ := onFiled_frame finished
      rw [sameConnection, sameCalls]
      refine ⟨?_, formed, bytes, queued, ?_⟩
      · simp only [record, setOutput, same]
      · simp only [record, setOutput, calls]

/-- Draining the output queues the completion callback and, when the connection
is being shut down, closes the write side. -/
theorem outputDrained_law {s t : Session Ptr} (returned : s.outputDrained = .ok t) :
    t.connection = { s.connection with filed := t.connection.filed } ∧
    ∃ (queued : List Queued) (shut : List Call),
      t.calls = s.calls ++ queued.map .queueinLoop ++ shut ∧
      (shut = [] ∨ s.connection.state = .kDisconnecting ∧ shut = [.shutdownWrite]) := by
  obtain ⟨disabled, called, finished⟩ := bind_eq_ok.mp returned
  obtain ⟨sameCalls, sameConnection⟩ := onFiled_frame called
  have notified : ∃ queued : List Queued,
      (if disabled.connection.writeCompleteCallback then
        disabled.record (.queueinLoop .writeCompleteCallback) else disabled) =
      { disabled with calls := s.calls ++ queued.map .queueinLoop } := by
    split
    · exact ⟨[.writeCompleteCallback], by simp [record, sameCalls]⟩
    · exact ⟨[], by simp [← sameCalls]⟩
  obtain ⟨queued, equation⟩ := notified
  rw [equation] at finished
  cases finished
  split
  next closing =>
    rw [sameConnection] at closing
    unfold shutdownInLoop
    split
    · exact ⟨by simpa [record] using sameConnection, queued, [.shutdownWrite], rfl,
        .inr ⟨closing, rfl⟩⟩
    · exact ⟨sameConnection, queued, [], by simp, .inl rfl⟩
  next opened =>
    exact ⟨sameConnection, queued, [], by simp, .inl rfl⟩

end Session

end Lucky
