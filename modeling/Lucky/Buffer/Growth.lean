import Lucky.Buffer.Laws
import Lucky.Systems.Fallible

/-!
# How far one call grows the buffer

`makeSpace` resizes from `writerIndex_` on and so keeps the consumed cells in front
of the readable bytes.  It does so only when these cells are fewer than the room
asked for, which bounds the new size by the demand alone.
-/

namespace Lucky

open Systems

namespace Buffer

variable {b : Buffer}

theorem copyTo_length {copied : Buffer} {position : Nat} {block : List Byte}
    (returned : b.copyTo position block = .ok copied) :
    copied.buffer.length = b.buffer.length := by
  unfold copyTo at returned
  split at returned
  next fits =>
    cases returned
    exact length_splice fits
  next => cases returned

theorem slide_length {moved : Buffer} (returned : b.slide = .ok moved) :
    moved.buffer.length = b.buffer.length := by
  unfold slide at returned
  split at returned
  next => exact copyTo_length returned
  next => cases returned

theorem resize_ok {resized : Buffer} {size : Nat} (returned : b.resize size = .ok resized) :
    resized.buffer.length = size ∧ resized.writerIndex = b.writerIndex := by
  unfold resize at returned
  split at returned
  next =>
    cases returned
    refine ⟨?_, rfl⟩
    simp only [List.length_append, List.length_take, List.length_replicate]
    omega
  next => cases returned

/-- A demand of `len` bytes next to the readable ones has made the buffer no larger than
twice the demand. -/
def GrownFor (b : Buffer) (len : Nat) (next : Buffer) : Prop :=
  next.buffer.length ≤ b.buffer.length ∨
    next.buffer.length ≤ 2 * (b.readableBytes + len) + kCheapPrepend

namespace WellFormed

theorem makeSpace_grown (wellFormed : b.WellFormed) {len : Nat} (fits : b.Fits len)
    {roomy : Buffer} (returned : b.makeSpace len = .ok roomy) : b.GrownFor len roomy := by
  have ordered := wellFormed.ordered
  have inside := wellFormed.inside
  have short := wellFormed.length_lt
  have spare : sizeAdd b.writableBytes b.prependableBytes =
      b.writableBytes + b.readerIndex := by
    rw [wellFormed.writableBytes_eq]
    exact sizeAdd_of_lt (by unfold prependableBytes; omega)
  unfold Buffer.makeSpace at returned
  rw [spare, sizeAdd_of_lt fits.prepended, sizeAdd_of_lt fits.extended] at returned
  split at returned
  next grow =>
    -- the consumed cells are fewer than the request, up to the reserved ones
    have consumed : b.readerIndex < len + kCheapPrepend := by omega
    have readable := wellFormed.readableBytes_eq
    right
    rw [(resize_ok returned).1]
    omega
  next =>
    obtain ⟨moved, slid, finished⟩ := bind_eq_ok.mp returned
    have length := slide_length slid
    cases finished
    exact .inl (Nat.le_of_eq length)

theorem ensureWritableBytes_grown (wellFormed : b.WellFormed) {len : Nat} (fits : b.Fits len)
    {roomy : Buffer} (returned : b.ensureWritableBytes len = .ok roomy) :
    b.GrownFor len roomy := by
  unfold Buffer.ensureWritableBytes at returned
  split at returned
  next => exact wellFormed.makeSpace_grown fits returned
  next =>
    cases returned
    exact .inl (Nat.le_refl _)

theorem append_grown (wellFormed : b.WellFormed) {data : List Byte} (fits : b.Fits data.length)
    {next : Buffer} (returned : b.append data = .ok next) : b.GrownFor data.length next := by
  obtain ⟨roomy, ensured, copies⟩ := bind_eq_ok.mp returned
  obtain ⟨copied, copiedTo, finished⟩ := bind_eq_ok.mp copies
  cases finished
  have grown := wellFormed.ensureWritableBytes_grown fits ensured
  unfold GrownFor at *
  rw [copyTo_length copiedTo]
  exact grown

/-- The demand of `readFd` is what it has received: the rest that is appended waits
behind the bytes that filled the free cells. -/
theorem readFd_grown (wellFormed : b.WellFormed) {bytes : List Byte}
    (received : bytes.length ≤ b.iovTotal) {saveErrno : Nat} {next : Buffer} {answer : Int × Nat}
    (returned : b.readFd saveErrno (.received bytes) = .ok (next, answer)) :
    b.GrownFor bytes.length next := by
  obtain ⟨filled, formed, length, contents,
    ⟨all, fills⟩ | ⟨more, full, fits, appends⟩⟩ :=
    wellFormed.readFd_fill received saveErrno
  · rw [fills] at returned
    cases returned
    exact .inl (Nat.le_of_eq length)
  · rw [appends] at returned
    cases appended : filled.append (bytes.drop b.writableBytes) with
    | error raised =>
        rw [appended] at returned
        cases returned
    | ok after =>
        rw [appended] at returned
        cases returned
        have demand : filled.readableBytes + (bytes.drop b.writableBytes).length =
            b.readableBytes + bytes.length := by
          rw [← formed.length_readable, contents, ← wellFormed.length_readable,
            List.length_append, Nat.add_assoc, ← List.length_append, List.take_append_drop]
        have grown := formed.append_grown fits appended
        unfold GrownFor at *
        rw [demand, length] at grown
        exact grown

end WellFormed

end Buffer

end Lucky
