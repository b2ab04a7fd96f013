import Lucky.Buffer.Ledger

/-!
# Reserving room for any `size_t`

`makeSpace` forms `len + kCheapPrepend` for its test and `writerIndex_ + len` for the
new size.  Each sum may wrap: the first then takes a huge request for a small one and
slides, the second cuts the vector off in front of `writerIndex_`.
-/

namespace Lucky

open Systems

namespace Buffer

/-- `ensureWritableBytes` throws and leaves the buffer as it was, or makes room and keeps
the readable bytes and the layout. -/
def ReservesSafely (b : Buffer) (len : Nat) : Prop :=
  b.ensureWritableBytes len = .error ⟨.lengthError, b⟩ ∨
    ∃ roomy, b.ensureWritableBytes len = .ok roomy ∧ len ≤ roomy.writableBytes ∧
      roomy.readable = b.readable ∧ roomy.writerIndex ≤ roomy.buffer.length

instance (b : Buffer) (len : Nat) : Decidable (b.ReservesSafely len) :=
  match ensured : b.ensureWritableBytes len with
  | .ok roomy => decidable_of_iff (len ≤ roomy.writableBytes ∧ roomy.readable = b.readable ∧
      roomy.writerIndex ≤ roomy.buffer.length) (by simp [ReservesSafely, ensured])
  | .error raised => decidable_of_iff (raised = ⟨.lengthError, b⟩)
      (by simp [ReservesSafely, ensured])

variable {b : Buffer} {len : Nat}

theorem ReservesSafely.of_returned {roomy : Buffer} (safe : b.ReservesSafely len)
    (returned : b.ensureWritableBytes len = .ok roomy) :
    len ≤ roomy.writableBytes ∧ roomy.readable = b.readable ∧
      roomy.writerIndex ≤ roomy.buffer.length := by
  rcases safe with raised | ⟨same, ensured, reserved⟩
  · rw [returned] at raised
    cases raised
  · rw [returned] at ensured
    cases ensured
    exact reserved

namespace WellFormed

theorem spare_eq (wellFormed : b.WellFormed) : sizeAdd b.writableBytes b.prependableBytes =
    b.buffer.length - b.writerIndex + b.readerIndex := by
  have ordered := wellFormed.ordered
  have inside := wellFormed.inside
  have short := wellFormed.length_lt
  rw [wellFormed.writableBytes_eq]
  exact sizeAdd_of_lt (by unfold prependableBytes; omega)

/-- The test takes the request for one of at most seven bytes, which the reserved cells
alone outnumber: the bytes are moved and there is no room for the request. -/
theorem makeSpace_of_test_wraps (wellFormed : b.WellFormed) (isSize : len < sizeModulus)
    (wraps : sizeModulus ≤ len + kCheapPrepend) :
    ∃ moved, b.makeSpace len = .ok moved ∧ moved.writableBytes < len := by
  have reserved := wellFormed.reserved
  have ordered := wellFormed.ordered
  have inside := wellFormed.inside
  have bounded := wellFormed.bounded
  have readable := wellFormed.readableBytes_eq
  have test : sizeAdd len kCheapPrepend = len + kCheapPrepend - sizeModulus :=
    sizeAdd_of_ge wraps (by simp only [kCheapPrepend, sizeModulus] at *; omega)
  have slides : ¬ sizeAdd b.writableBytes b.prependableBytes < sizeAdd len kCheapPrepend := by
    rw [wellFormed.spare_eq, test]
    omega
  obtain ⟨moved, slid, length, _⟩ := wellFormed.slide
  have occupied : sizeAdd kCheapPrepend b.readableBytes = kCheapPrepend + b.readableBytes :=
    sizeAdd_of_lt (by have short := wellFormed.length_lt; omega)
  refine ⟨{ moved with
    readerIndex := kCheapPrepend
    writerIndex := kCheapPrepend + b.readableBytes }, ?_, ?_⟩
  · simp only [Buffer.makeSpace, slides, if_false, slid, occupied]
    rfl
  · have short := wellFormed.length_lt
    have room : sizeSub moved.buffer.length (kCheapPrepend + b.readableBytes) =
        b.buffer.length - (kCheapPrepend + b.readableBytes) := by
      rw [length]
      exact sizeSub_of_le (by omega) short
    rw [writableBytes, room]
    simp only [kCheapPrepend, sizeModulus, maxSize] at *
    omega

/-- The new size has wrapped past zero and lies in front of `writerIndex_`. -/
theorem makeSpace_of_size_wraps (wellFormed : b.WellFormed)
    (fits : len + kCheapPrepend < sizeModulus) (wraps : sizeModulus ≤ b.writerIndex + len) :
    ∃ shrunk, b.makeSpace len = .ok shrunk ∧ shrunk.buffer.length < shrunk.writerIndex := by
  have ordered := wellFormed.ordered
  have inside := wellFormed.inside
  have bounded := wellFormed.bounded
  have short := wellFormed.length_lt
  have size : sizeAdd b.writerIndex len = b.writerIndex + len - sizeModulus :=
    sizeAdd_of_ge wraps (by omega)
  have grows : sizeAdd b.writableBytes b.prependableBytes < sizeAdd len kCheapPrepend := by
    rw [wellFormed.spare_eq, sizeAdd_of_lt fits]
    simp only [sizeModulus, maxSize] at *
    omega
  have possible : b.writerIndex + len - sizeModulus ≤ maxSize := by omega
  cases resized : b.resize (b.writerIndex + len - sizeModulus) with
  | error raised => simp [Buffer.resize, possible] at resized
  | ok shrunk =>
      refine ⟨shrunk, by rw [Buffer.makeSpace, if_pos grows, size, resized], ?_⟩
      obtain ⟨length, same⟩ := resize_ok resized
      omega

theorem reservesSafely_iff (wellFormed : b.WellFormed) (isSize : len < sizeModulus) :
    b.ReservesSafely len ↔ b.writerIndex + len < sizeModulus := by
  have reserved := wellFormed.reserved
  have ordered := wellFormed.ordered
  have inside := wellFormed.inside
  have bounded := wellFormed.bounded
  constructor
  · intro safe
    by_contra wraps
    have lacking : b.writableBytes < len := by
      rw [wellFormed.writableBytes_eq]
      simp only [sizeModulus, maxSize] at *
      omega
    have makes : b.ensureWritableBytes len = b.makeSpace len := if_pos lacking
    by_cases fits : len + kCheapPrepend < sizeModulus
    · obtain ⟨shrunk, returned, beyond⟩ :=
        wellFormed.makeSpace_of_size_wraps fits (Nat.le_of_not_lt wraps)
      have reserved := safe.of_returned (makes.trans returned)
      omega
    · obtain ⟨moved, returned, lacks⟩ :=
        wellFormed.makeSpace_of_test_wraps isSize (Nat.le_of_not_lt fits)
      have reserved := safe.of_returned (makes.trans returned)
      omega
  · intro extended
    have fits : b.Fits len := ⟨by omega, extended⟩
    rcases wellFormed.ensureWritableBytes fits with
      ⟨roomy, ensured, formed, room, contents, _⟩ | ⟨raised, _⟩
    · exact .inr ⟨roomy, ensured, room, contents, formed.inside⟩
    · exact .inl raised

end WellFormed

/-- In every buffer a run reaches whose calls so far have not wrapped a sum,
`ensureWritableBytes(len)` is safe exactly when `writerIndex_ + len` does not wrap. -/
theorem reserves_safely_iff {initalSize : Nat} {fresh : Buffer}
    (fits : kCheapPrepend + initalSize < sizeModulus) (made : make initalSize = .ok fresh)
    {operations : List Operation} {ledger : Ledger}
    (proper : ledgers.Guarded (fun before operation => before.buffer.Proper operation)
      (.make fresh) operations)
    (run : ledgers.exec (.make fresh) operations = some ledger)
    {len : Nat} (isSize : len < sizeModulus) :
    ledger.buffer.ReservesSafely len ↔ ledger.buffer.writerIndex + len < sizeModulus :=
  (ledgers_wellFormed (make_wellFormed fits made).1 proper run).reservesSafely_iff isSize

/-- With one readable byte, a request for `2 ^ 64 - 9` bytes resizes the vector to zero;
the largest request of all slides and reserves nothing. -/
theorem ensureWritableBytes_wraps :
    ∃ ledger, ledgers.exec (.make ⟨List.replicate 10 0, 8, 8⟩) [.append [1]] = some ledger ∧
      ¬ ledger.buffer.ReservesSafely (2 ^ 64 - 9) ∧
      ledger.buffer.ensureWritableBytes (2 ^ 64 - 9) = .ok ⟨[], 8, 9⟩ ∧
      ¬ ledger.buffer.ReservesSafely (2 ^ 64 - 1) ∧
      ledger.buffer.ensureWritableBytes (2 ^ 64 - 1) =
        .ok ⟨List.replicate 8 0 ++ [1, 0], 8, 9⟩ :=
  ⟨_, rfl, by decide +kernel, by decide +kernel, by decide +kernel, by decide +kernel⟩

/-- The largest request whose sum does not wrap throws, as the vector would be too
large. -/
theorem reserves_safely_iff_largest :
    ∃ ledger, ledgers.exec (.make ⟨List.replicate 10 0, 8, 8⟩)
        [.append [1, 2, 3], .retrieve 1] = some ledger ∧
      ledger.buffer.ReservesSafely (2 ^ 64 - 12) := by
  have run : ledgers.exec (.make ⟨List.replicate 10 0, 8, 8⟩) [.append [1, 2, 3], .retrieve 1] =
      some ⟨⟨List.replicate 8 0 ++ [1, 2, 3], 9, 11⟩, [1, 2, 3], [], 3⟩ := rfl
  refine ⟨_, run, ?_⟩
  exact (reserves_safely_iff (by decide) (rfl : make 2 = .ok ⟨List.replicate 10 0, 8, 8⟩)
    (by decide +kernel) run (by decide)).mpr (by decide +kernel)

end Buffer

end Lucky
