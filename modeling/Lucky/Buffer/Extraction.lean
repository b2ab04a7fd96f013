import Lucky.Buffer.Ledger

/-!
# Strings taken from the buffer

`retrieveAsString` copies `len` bytes from `peek()` on and then calls `retrieve(len)`,
which stops at the readable bytes.  The copy does not: a string longer than that goes
on with the cells behind `writerIndex_`, where earlier bytes may still be.
-/

namespace Lucky

open Systems

namespace Buffer

/-- `std::string(peek(), len)` reads the cell at `position`.  A string longer than
`max_size()` is refused before anything is read. -/
def Reads (b : Buffer) (len position : Nat) : Prop :=
  len ≤ maxSize ∧ b.readerIndex ≤ position ∧ position < b.readerIndex + len

/-- `retrieveAsString` reads readable bytes only, and returns those its `retrieve`
removes. -/
def ExtractsReadable (b : Buffer) (len : Nat) : Prop :=
  (∀ position, b.Reads len position → position < b.writerIndex) ∧
    ∃ result, b.retrieveAsString len = .ok (b.retrieve len, result) ∧
      result.length = min len b.readableBytes ∧
      result ++ (b.retrieve len).readable = b.readable

theorem copyOut_eq {b : Buffer} {len : Nat} {result : List Byte}
    (returned : b.copyOut len = .ok result) : result.length = len ∧
      ∀ offset < len, result[offset]? = b.buffer[b.readerIndex + offset]? := by
  unfold copyOut at returned
  split at returned
  · cases returned
  · split at returned
    next contained =>
      cases returned
      refine ⟨?_, fun offset before => getElem?_window (by omega)⟩
      rw [length_window contained]
      omega
    next => cases returned

/-- The copy leaves `buffer_` exactly when a position it reads lies outside. -/
theorem WellFormed.copyOut_outOfBounds_iff {b : Buffer} (wellFormed : b.WellFormed) {len : Nat} :
    b.copyOut len = .error ⟨.outOfBounds, b⟩ ↔
      ∃ position, b.Reads len position ∧ b.buffer.length ≤ position := by
  have inside := Nat.le_trans wellFormed.ordered wellFormed.inside
  unfold copyOut
  constructor
  · intro faults
    split at faults
    · cases faults
    · split at faults
      next => cases faults
      next beyond => exact ⟨b.buffer.length, ⟨by omega, inside, by omega⟩, Nat.le_refl _⟩
  · rintro ⟨position, ⟨copies, _, before⟩, outside⟩
    rw [if_neg (by omega), if_neg (by omega)]

theorem WellFormed.extractsReadable_iff {b : Buffer} (wellFormed : b.WellFormed) {len : Nat} :
    b.ExtractsReadable len ↔ len ≤ b.readableBytes := by
  have ordered := wellFormed.ordered
  have inside := wellFormed.inside
  have readable := wellFormed.readableBytes_eq
  constructor
  · rintro ⟨within, result, returned, _, _⟩
    have copies : len ≤ maxSize := by
      by_contra excessive
      have refused : b.copyOut len = .error ⟨.lengthError, b⟩ :=
        if_pos (Nat.lt_of_not_le excessive)
      rw [Buffer.retrieveAsString, refused] at returned
      cases returned
    by_contra more
    have behind := within b.writerIndex ⟨copies, ordered, by omega⟩
    exact Nat.lt_irrefl _ behind
  · intro available
    refine ⟨?_, _, wellFormed.retrieveAsString available, ?_, ?_⟩
    · rintro position ⟨_, _, before⟩
      omega
    · rw [List.length_take, wellFormed.length_readable]
    · rw [(wellFormed.retrieve len).2, List.take_append_drop]

/-- Everything handed out or still readable has been received, in order. -/
structure Drawn (ledger : Ledger) : Prop where
  wellFormed : ledger.buffer.WellFormed
  drawn : (ledger.extracted ++ ledger.buffer.readable).Sublist ledger.received

theorem Drawn.step {ledger next : Ledger} {operation : Operation} (drawn : Drawn ledger)
    (proper : ledger.buffer.Proper operation) (available : ledger.buffer.Available operation)
    (stepped : ledgers.step ledger operation = some next) : Drawn next := by
  obtain ⟨settled, accounted, rfl⟩ := ledgers_step drawn.wellFormed proper stepped
  refine ⟨accounted.wellFormed, ?_⟩
  have taken := (accounted.drawn available).append_left ledger.extracted
  have before := drawn.drawn.append_right settled.input
  simp only [List.append_assoc] at taken before ⊢
  exact taken.trans before

/-- In every buffer a run reaches, `retrieveAsString(len)` extracts readable bytes only
exactly when so many are there.  Where all calls of a run ask for no more, the strings
together are a subsequence of the bytes received. -/
theorem extracts_received_iff {initalSize : Nat} {fresh : Buffer}
    (fits : kCheapPrepend + initalSize < sizeModulus) (made : make initalSize = .ok fresh)
    (operations : List Operation)
    (proper : ledgers.Guarded (fun before operation => before.buffer.Proper operation)
      (.make fresh) operations) :
    (∀ ledger, ledgers.exec (.make fresh) operations = some ledger →
      ∀ len, ledger.buffer.ExtractsReadable len ↔ len ≤ ledger.buffer.readableBytes) ∧
    (ledgers.Guarded (fun before operation => before.buffer.Available operation)
        (.make fresh) operations →
      ledgers.Always (fun ledger => ledger.extracted.Sublist ledger.received)
        (.make fresh) operations) := by
  obtain ⟨formed, empty⟩ := make_wellFormed fits made
  refine ⟨?_, fun available => ?_⟩
  · intro ledger run len
    exact (ledgers_wellFormed formed proper run).extractsReadable_iff
  · have initially : Drawn (.make fresh) := ⟨formed, by simp [Ledger.make, empty]⟩
    apply Machine.always_of_guarded
      (fun _ _ _ drawn allowed stepped => Drawn.step drawn allowed.1 allowed.2 stepped)
      ?_ initially (proper.and available)
    exact fun ledger drawn => (List.sublist_append_left _ _).trans drawn.drawn

/-- The string of two bytes has a readable one and an earlier one that had been
discarded. -/
theorem retrieveAsString_returns_stale_byte :
    ∃ before after,
      ledgers.exec (.make ⟨List.replicate 10 0, 8, 8⟩)
        [.append [1, 2, 3], .retrieveAll, .append [4]] = some before ∧
      ledgers.step before (.retrieveAsString 2) = some after ∧
      ¬ before.buffer.ExtractsReadable 2 ∧
      after.extracted = [4, 2] ∧ after.received = [1, 2, 3, 4] ∧
      ¬ after.extracted.Sublist after.received := by
  refine ⟨_, _, rfl, rfl, ?_, rfl, rfl, by decide⟩
  rintro ⟨within, _⟩
  exact absurd (within 9 ⟨by decide +kernel, by decide +kernel, by decide +kernel⟩)
    (by decide +kernel)

/-- Strings of one byte, of none, and of all that is left. -/
theorem extracts_received_iff_available :
    ledgers.Always (fun ledger => ledger.extracted.Sublist ledger.received)
      (.make ⟨List.replicate 10 0, 8, 8⟩)
      [.append [1, 2, 3], .retrieveAsString 1, .retrieve 1, .readFd (.received [4, 5]),
        .retrieveAsString 0, .retrieveAllAsString] :=
  (extracts_received_iff (by decide) (rfl : make 2 = .ok ⟨List.replicate 10 0, 8, 8⟩) _
    (by decide +kernel)).2 (by decide +kernel)

end Buffer

end Lucky
