import Lucky.Buffer.Layout

/-!
# Laws of the buffer operations

`WellFormed` is the layout `kCheapPrepend ≤ readerIndex ≤ writerIndex ≤ size`.
Each operation on a well-formed buffer has one law: it returns a well-formed
buffer with the stated readable bytes, or raises `lengthError` because a vector
above `max_size()` would be needed.  No law allows `outOfBounds`.
-/

namespace Lucky

open Systems

namespace Buffer

/-- The layout comment of `Buffer.h`, with the size any vector can have. -/
structure WellFormed (b : Buffer) : Prop where
  reserved : kCheapPrepend ≤ b.readerIndex
  ordered : b.readerIndex ≤ b.writerIndex
  inside : b.writerIndex ≤ b.buffer.length
  bounded : b.buffer.length ≤ maxSize

/-- The two sums formed when room for `len` bytes is made stay below `2 ^ 64`. -/
structure Fits (b : Buffer) (len : Nat) : Prop where
  prepended : len + kCheapPrepend < sizeModulus
  extended : b.writerIndex + len < sizeModulus

instance (b : Buffer) (len : Nat) : Decidable (b.Fits len) :=
  decidable_of_iff (len + kCheapPrepend < sizeModulus ∧ b.writerIndex + len < sizeModulus)
    ⟨fun holds => ⟨holds.1, holds.2⟩, fun fits => ⟨fits.prepended, fits.extended⟩⟩

theorem make_wellFormed {initalSize : Nat} {b : Buffer}
    (fits : kCheapPrepend + initalSize < sizeModulus)
    (made : make initalSize = .ok b) : b.WellFormed ∧ b.readable = [] := by
  unfold make at made
  rw [sizeAdd_of_lt fits] at made
  split at made
  next possible =>
    cases made
    exact ⟨⟨Nat.le_refl _, Nat.le_refl _, by simp, by simpa using possible⟩,
      by simp [readable]⟩
  next excessive => simp at made

@[simp]
theorem writeFd_fst (b : Buffer) (saveErrno : Nat) (answer : WriteResult) :
    (b.writeFd saveErrno answer).1 = answer.returned := by
  unfold writeFd
  split <;> rfl

theorem make_kInitialSize : make kInitialSize = .ok initial := rfl

theorem initial_wellFormed : initial.WellFormed ∧ initial.readable = [] :=
  make_wellFormed (by decide) make_kInitialSize

namespace WellFormed

variable {b : Buffer}

theorem length_lt (wellFormed : b.WellFormed) : b.buffer.length < sizeModulus := by
  have bounded := wellFormed.bounded
  simp only [maxSize, sizeModulus] at *
  omega

theorem readableBytes_eq (wellFormed : b.WellFormed) :
    b.readableBytes = b.writerIndex - b.readerIndex :=
  sizeSub_of_le wellFormed.ordered
    (Nat.lt_of_le_of_lt wellFormed.inside wellFormed.length_lt)

theorem writableBytes_eq (wellFormed : b.WellFormed) :
    b.writableBytes = b.buffer.length - b.writerIndex :=
  sizeSub_of_le wellFormed.inside wellFormed.length_lt

theorem length_readable (wellFormed : b.WellFormed) :
    b.readable.length = b.readableBytes := by
  rw [wellFormed.readableBytes_eq]
  exact length_window wellFormed.inside

/-- A request no larger than an object can be overflows no sum. -/
theorem fits (wellFormed : b.WellFormed) {len : Nat} (object : len ≤ maxSize) :
    b.Fits len := by
  have bounded := Nat.le_trans wellFormed.inside wellFormed.bounded
  constructor <;> simp only [maxSize, sizeModulus, kCheapPrepend] at * <;> omega

theorem readable_eq_nil_iff (wellFormed : b.WellFormed) :
    b.readable = [] ↔ b.readableBytes = 0 := by
  rw [← wellFormed.length_readable, List.length_eq_zero_iff]

theorem retrieveAll (wellFormed : b.WellFormed) : b.retrieveAll.WellFormed :=
  ⟨Nat.le_refl _, Nat.le_refl _,
    Nat.le_trans wellFormed.reserved (Nat.le_trans wellFormed.ordered wellFormed.inside),
    wellFormed.bounded⟩

theorem retrieve (wellFormed : b.WellFormed) (len : Nat) :
    (b.retrieve len).WellFormed ∧ (b.retrieve len).readable = b.readable.drop len := by
  have ordered := wellFormed.ordered
  have inside := wellFormed.inside
  have reserved := wellFormed.reserved
  have short := wellFormed.length_lt
  by_cases partly : len < b.readableBytes
  · have advanced : b.readerIndex + len ≤ b.writerIndex := by
      rw [wellFormed.readableBytes_eq] at partly
      omega
    have moved : sizeAdd b.readerIndex len = b.readerIndex + len :=
      sizeAdd_of_lt (by omega)
    simp only [Buffer.retrieve, partly, if_true, moved]
    exact ⟨⟨by simpa using Nat.le_trans reserved (Nat.le_add_right _ len), advanced, inside,
      wellFormed.bounded⟩, window_drop b.buffer b.readerIndex b.writerIndex len⟩
  · have all : b.readable.length ≤ len := by
      rw [wellFormed.length_readable]
      omega
    simp only [Buffer.retrieve, partly, if_false]
    refine ⟨wellFormed.retrieveAll, ?_⟩
    rw [List.drop_eq_nil_of_le all]
    simp [readable, Buffer.retrieveAll]

theorem retrieveAsString (wellFormed : b.WellFormed) {len : Nat}
    (available : len ≤ b.readableBytes) :
    b.retrieveAsString len = .ok (b.retrieve len, b.readable.take len) := by
  have ordered := wellFormed.ordered
  have inside := wellFormed.inside
  have bounded := wellFormed.bounded
  rw [wellFormed.readableBytes_eq] at available
  have short : ¬ maxSize < len := by omega
  have contained : b.readerIndex + len ≤ b.buffer.length := by omega
  have copied : window b.buffer b.readerIndex (b.readerIndex + len) = b.readable.take len :=
    window_take (by omega)
  simp only [Buffer.retrieveAsString, copyOut, short, contained, if_true, if_false, copied]
  rfl

theorem resize (wellFormed : b.WellFormed) {size : Nat}
    (larger : b.buffer.length ≤ size) (fits : size ≤ maxSize) :
    ∃ grown, b.resize size = .ok grown ∧ grown.WellFormed ∧
      grown.readable = b.readable ∧ grown.writerIndex = b.writerIndex ∧
      grown.readerIndex = b.readerIndex ∧ grown.buffer.length = size := by
  have kept : b.buffer.take size = b.buffer := List.take_of_length_le larger
  have length : (b.buffer ++ List.replicate (size - b.buffer.length) 0).length = size := by
    simp only [List.length_append, List.length_replicate]
    omega
  simp only [Buffer.resize, fits, if_true, kept]
  refine ⟨_, rfl, ⟨wellFormed.reserved, wellFormed.ordered, ?_, ?_⟩,
    window_append wellFormed.inside _, rfl, rfl, length⟩
  · simpa only [length] using Nat.le_trans wellFormed.inside larger
  · simpa only [length] using fits

theorem slide (wellFormed : b.WellFormed) :
    ∃ moved, b.slide = .ok moved ∧ moved.buffer.length = b.buffer.length ∧
      window moved.buffer kCheapPrepend (kCheapPrepend + b.readableBytes) = b.readable := by
  have length := wellFormed.length_readable
  have equation := wellFormed.readableBytes_eq
  have reserved := wellFormed.reserved
  have ordered := wellFormed.ordered
  have inside := wellFormed.inside
  have fits : kCheapPrepend + b.readable.length ≤ b.buffer.length := by omega
  refine ⟨{ b with buffer := splice b.buffer kCheapPrepend b.readable }, ?_,
    length_splice fits, ?_⟩
  · simp only [Buffer.slide, ordered, inside, and_self, if_true, copyTo]
    exact if_pos fits
  · rw [← length]
    exact window_splice_self (by omega)

theorem makeSpace (wellFormed : b.WellFormed) {len : Nat} (fits : b.Fits len)
    (lacking : b.writableBytes < len) :
    (∃ roomy, b.makeSpace len = .ok roomy ∧ roomy.WellFormed ∧
      len ≤ roomy.writableBytes ∧ roomy.readable = b.readable ∧
      roomy.writerIndex ≤ b.writerIndex) ∨
    (b.makeSpace len = .error ⟨.lengthError, b⟩ ∧ maxSize < b.writerIndex + len) := by
  have reserved := wellFormed.reserved
  have ordered := wellFormed.ordered
  have inside := wellFormed.inside
  have bounded := wellFormed.bounded
  have short := wellFormed.length_lt
  have writable := wellFormed.writableBytes_eq
  have readableBytes := wellFormed.readableBytes_eq
  have spare : sizeAdd b.writableBytes b.prependableBytes =
      b.writableBytes + b.prependableBytes :=
    sizeAdd_of_lt (by unfold prependableBytes; omega)
  have wanted : sizeAdd len kCheapPrepend = len + kCheapPrepend :=
    sizeAdd_of_lt fits.prepended
  have extended : sizeAdd b.writerIndex len = b.writerIndex + len :=
    sizeAdd_of_lt fits.extended
  unfold Buffer.makeSpace
  rw [spare, wanted, extended]
  by_cases grow : b.writableBytes + b.prependableBytes < len + kCheapPrepend
  · rw [if_pos grow]
    by_cases possible : b.writerIndex + len ≤ maxSize
    · rcases wellFormed.resize (by omega : b.buffer.length ≤ b.writerIndex + len) possible with
        ⟨grown, resized, grownFormed, sameBytes, sameWriter, sameReader, length⟩
      refine .inl ⟨grown, resized, grownFormed, ?_, sameBytes, Nat.le_of_eq sameWriter⟩
      rw [grownFormed.writableBytes_eq]
      omega
    · exact .inr ⟨by simp [Buffer.resize, possible], by omega⟩
  · rw [if_neg grow]
    rcases wellFormed.slide with ⟨moved, slid, length, bytes⟩
    have occupied : sizeAdd kCheapPrepend b.readableBytes = kCheapPrepend + b.readableBytes :=
      sizeAdd_of_lt (by omega)
    have roomyFormed : WellFormed { moved with
        readerIndex := kCheapPrepend
        writerIndex := kCheapPrepend + b.readableBytes } :=
      ⟨Nat.le_refl _, Nat.le_add_right _ _, by simp only [length]; omega,
        by simpa only [length] using bounded⟩
    refine .inl ⟨_, ?_, roomyFormed, ?_, bytes, ?_⟩
    · simp only [slid, occupied]
      rfl
    · rw [roomyFormed.writableBytes_eq]
      simp only [length]
      unfold prependableBytes at grow
      omega
    · simp only
      omega

theorem ensureWritableBytes (wellFormed : b.WellFormed) {len : Nat} (fits : b.Fits len) :
    (∃ roomy, b.ensureWritableBytes len = .ok roomy ∧ roomy.WellFormed ∧
      len ≤ roomy.writableBytes ∧ roomy.readable = b.readable ∧
      roomy.writerIndex ≤ b.writerIndex) ∨
    (b.ensureWritableBytes len = .error ⟨.lengthError, b⟩ ∧
      maxSize < b.writerIndex + len) := by
  by_cases lacking : b.writableBytes < len
  · simpa only [Buffer.ensureWritableBytes, lacking, if_true] using
      wellFormed.makeSpace fits lacking
  · exact .inl ⟨b, by simp [Buffer.ensureWritableBytes, lacking], wellFormed, by omega, rfl,
      Nat.le_refl _⟩

theorem copyTo (wellFormed : b.WellFormed) {data : List Byte}
    (room : data.length ≤ b.writableBytes) :
    ∃ copied, b.copyTo b.writerIndex data = .ok copied ∧
      copied.writerIndex = b.writerIndex ∧ copied.buffer.length = b.buffer.length ∧
      sizeAdd b.writerIndex data.length = b.writerIndex + data.length ∧
      WellFormed { copied with writerIndex := b.writerIndex + data.length } ∧
      window copied.buffer copied.readerIndex (b.writerIndex + data.length) =
        b.readable ++ data := by
  have inside := wellFormed.inside
  have short := wellFormed.length_lt
  have bounded := wellFormed.bounded
  rw [wellFormed.writableBytes_eq] at room
  have fits : b.writerIndex + data.length ≤ b.buffer.length := by omega
  have length := length_splice fits
  refine ⟨{ b with buffer := splice b.buffer b.writerIndex data },
    by simp [Buffer.copyTo, fits], rfl, length, sizeAdd_of_lt (by omega), ?_,
    window_splice_extend wellFormed.ordered fits⟩
  exact ⟨wellFormed.reserved, Nat.le_trans wellFormed.ordered (Nat.le_add_right _ _),
    by simpa only [length] using fits, by simpa only [length] using bounded⟩

theorem append (wellFormed : b.WellFormed) {data : List Byte} (fits : b.Fits data.length) :
    (∃ next, b.append data = .ok next ∧ next.WellFormed ∧
      next.readable = b.readable ++ data) ∨
    (b.append data = .error ⟨.lengthError, b⟩ ∧ maxSize < b.writerIndex + data.length) := by
  rcases wellFormed.ensureWritableBytes fits with
    ⟨roomy, ensured, roomyFormed, room, sameBytes, _⟩ | ⟨raised, excessive⟩
  · rcases roomyFormed.copyTo room with
      ⟨copied, copiedTo, sameWriter, _, advanced, formed, bytes⟩
    refine .inl ⟨_, ?_, formed, ?_⟩
    · simp only [Buffer.append, ensured, bind, Except.bind, copiedTo, sameWriter, advanced]
      rfl
    · rw [← sameBytes]
      exact bytes
  · exact .inr ⟨by simp [Buffer.append, raised, bind, Except.bind], excessive⟩

/-- The received bytes fill the free cells first; those beyond went to `extrabuff` and
are appended from there. -/
theorem readFd_fill (wellFormed : b.WellFormed) {bytes : List Byte}
    (received : bytes.length ≤ b.iovTotal) (saveErrno : Nat) :
    ∃ filled, filled.WellFormed ∧ filled.buffer.length = b.buffer.length ∧
      filled.readable = b.readable ++ bytes.take b.writableBytes ∧
      (bytes.length ≤ b.writableBytes ∧
          b.readFd saveErrno (.received bytes) = .ok (filled, bytes.length, saveErrno) ∨
        b.writableBytes < bytes.length ∧ filled.writerIndex = b.buffer.length ∧
          filled.Fits (bytes.drop b.writableBytes).length ∧
          b.readFd saveErrno (.received bytes) =
            (filled.append (bytes.drop b.writableBytes)).map fun appended =>
              (appended, (bytes.length : Int), saveErrno)) := by
  have inside := wellFormed.inside
  have bounded := wellFormed.bounded
  have writable := wellFormed.writableBytes_eq
  have takenLength : (bytes.take b.writableBytes).length ≤ b.writableBytes :=
    List.length_take_le _ _
  rcases wellFormed.copyTo takenLength with
    ⟨filled, copied, sameWriter, length, advanced, formed, contents⟩
  simp only [Buffer.readFd, copied, bind, Except.bind]
  by_cases all : bytes.length ≤ b.writableBytes
  · rw [List.take_of_length_le all] at advanced formed contents
    refine ⟨_, formed, length, ?_, .inl ⟨all, ?_⟩⟩
    · rw [List.take_of_length_le all]
      exact contents
    · simp only [all, if_true, sameWriter, advanced]
      rfl
  · have full : b.writerIndex + (bytes.take b.writableBytes).length = b.buffer.length := by
      rw [List.length_take]
      omega
    have restLength : (bytes.drop b.writableBytes).length ≤ extrabuffSize := by
      unfold iovTotal at received
      rw [List.length_drop]
      split at received <;> omega
    rw [full, ← length] at formed contents
    have fits : Fits { filled with writerIndex := filled.buffer.length }
        (bytes.drop b.writableBytes).length := by
      have small : extrabuffSize = 65536 := rfl
      constructor <;> simp only [kCheapPrepend, sizeModulus, maxSize, length] at * <;> omega
    refine ⟨_, formed, length, contents, .inr ⟨by omega, length, fits, ?_⟩⟩
    simp only [all, if_false]
    cases Buffer.append { filled with writerIndex := filled.buffer.length }
      (bytes.drop b.writableBytes) <;> rfl

theorem readFd (wellFormed : b.WellFormed) {bytes : List Byte}
    (received : bytes.length ≤ b.iovTotal) (saveErrno : Nat) :
    (∃ next, b.readFd saveErrno (.received bytes) = .ok (next, bytes.length, saveErrno) ∧
      next.WellFormed ∧ next.readable = b.readable ++ bytes) ∨
    (∃ left, b.readFd saveErrno (.received bytes) = .error ⟨.lengthError, left⟩ ∧
      maxSize < b.writerIndex + bytes.length) := by
  have writable := wellFormed.writableBytes_eq
  rcases wellFormed.readFd_fill received saveErrno with
    ⟨filled, formed, length, contents, ⟨all, returned⟩ | ⟨more, full, fits, appends⟩⟩
  · rw [List.take_of_length_le all] at contents
    exact .inl ⟨filled, returned, formed, contents⟩
  · rw [appends]
    rcases formed.append fits with
      ⟨next, appended, nextFormed, nextBytes⟩ | ⟨raised, excessive⟩
    · refine .inl ⟨next, by rw [appended]; rfl, nextFormed, ?_⟩
      rw [nextBytes, contents, List.append_assoc, List.take_append_drop]
    · refine .inr ⟨filled, by rw [raised]; rfl, ?_⟩
      have inside := wellFormed.inside
      rw [full, List.length_drop] at excessive
      omega

end WellFormed

end Buffer

end Lucky
