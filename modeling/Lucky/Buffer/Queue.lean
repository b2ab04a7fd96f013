import Lucky.Buffer.Laws
import Lucky.Systems.Machine

/-!
# The buffer refines a byte queue

A run is a list of `Operation`s on one buffer.  Abstractly the buffer is a
queue of bytes; `Operation.onQueue` is that queue's own account of each
operation, with the bytes it hands back.
-/

namespace Lucky

open Systems

namespace Buffer

inductive Operation where
  | append (data : List Byte)
  | ensureWritableBytes (len : Nat)
  | retrieve (len : Nat)
  | retrieveAll
  | retrieveAllAsString
  | retrieveAsString (len : Nat)
  | readFd (answer : ReadvResult)
  deriving DecidableEq, Repr

/-- The operation on the buffer, with the string it returns, if any. -/
def perform (b : Buffer) : Operation → Except Raised (Buffer × List Byte)
  | .append data => return (← b.append data, [])
  | .ensureWritableBytes len => return (← b.ensureWritableBytes len, [])
  | .retrieve len => .ok (b.retrieve len, [])
  | .retrieveAll => .ok (b.retrieveAll, [])
  | .retrieveAllAsString => b.retrieveAllAsString
  | .retrieveAsString len => b.retrieveAsString len
  | .readFd answer => return ((← b.readFd 0 answer).1, [])

/-- The operation on a queue of bytes, with the bytes handed back. -/
def Operation.onQueue (queue : List Byte) : Operation → List Byte × List Byte
  | .append data => (queue ++ data, [])
  | .ensureWritableBytes _ => (queue, [])
  | .retrieve len => (queue.drop len, [])
  | .retrieveAll => ([], [])
  | .retrieveAllAsString => ([], queue)
  | .retrieveAsString len => (queue.drop len, queue.take len)
  | .readFd (.received bytes) => (queue ++ bytes, [])
  | .readFd (.failed _) => (queue, [])

/-- What callers and the kernel keep to: sums stay in `size_t`, a string is asked
for bytes that are there, `readv` fills no more than its iovecs. -/
def Admissible (b : Buffer) : Operation → Prop
  | .append data => b.Fits data.length
  | .ensureWritableBytes len => b.Fits len
  | .retrieveAsString len => len ≤ b.readableBytes
  | .readFd (.received bytes) => bytes.length ≤ b.iovTotal
  | .retrieve _ | .retrieveAll | .retrieveAllAsString | .readFd (.failed _) => True

instance (b : Buffer) : DecidablePred b.Admissible
  | .append _ | .ensureWritableBytes _ => inferInstanceAs (Decidable (b.Fits _))
  | .retrieveAsString _ | .readFd (.received _) => inferInstanceAs (Decidable (_ ≤ _))
  | .retrieve _ | .retrieveAll | .retrieveAllAsString | .readFd (.failed _) => isTrue trivial

def Operation.demand : Operation → Nat
  | .append data => data.length
  | .ensureWritableBytes len => len
  | .readFd (.received bytes) => bytes.length
  | .retrieve _ | .retrieveAll | .retrieveAllAsString | .retrieveAsString _
  | .readFd (.failed _) => 0

/-- A buffer in a run, with the bytes its strings have handed back so far. -/
structure Traffic where
  buffer : Buffer
  extracted : List Byte
  deriving DecidableEq, Repr

/-- A step is an operation that returns. -/
def traffic : Machine Traffic Operation where
  step state operation :=
    match state.buffer.perform operation with
    | .ok (next, result) => some ⟨next, state.extracted ++ result⟩
    | .error _ => none

def Operation.onTraffic (state : List Byte × List Byte) (operation : Operation) :
    List Byte × List Byte :=
  ((operation.onQueue state.1).1, state.2 ++ (operation.onQueue state.1).2)

/-- An admissible operation returns what the queue returns, or raises
`lengthError` because the vector would outgrow `max_size()`. -/
theorem WellFormed.perform {b : Buffer} (wellFormed : b.WellFormed)
    {operation : Operation} (admissible : b.Admissible operation) :
    (∃ next result, b.perform operation = .ok (next, result) ∧ next.WellFormed ∧
      (next.readable, result) = operation.onQueue b.readable) ∨
    (∃ left, b.perform operation = .error ⟨.lengthError, left⟩ ∧
      maxSize < b.writerIndex + operation.demand) := by
  cases operation with
  | append data =>
      rcases wellFormed.append admissible with
        ⟨next, returned, formed, bytes⟩ | ⟨raised, large⟩
      · exact .inl ⟨next, [], by simp only [Buffer.perform, returned]; rfl, formed,
          by simp [Operation.onQueue, bytes]⟩
      · exact .inr ⟨b, by simp only [Buffer.perform, raised]; rfl, large⟩
  | ensureWritableBytes len =>
      rcases wellFormed.ensureWritableBytes admissible with
        ⟨next, returned, formed, _, bytes, _⟩ | ⟨raised, large⟩
      · exact .inl ⟨next, [], by simp only [Buffer.perform, returned]; rfl, formed,
          by simp [Operation.onQueue, bytes]⟩
      · exact .inr ⟨b, by simp only [Buffer.perform, raised]; rfl, large⟩
  | retrieve len =>
      exact .inl ⟨_, [], rfl, (wellFormed.retrieve len).1,
        by simp [Operation.onQueue, (wellFormed.retrieve len).2]⟩
  | retrieveAll =>
      exact .inl ⟨_, [], rfl, wellFormed.retrieveAll,
        by simp [Operation.onQueue, Buffer.retrieveAll, readable]⟩
  | retrieveAllAsString =>
      have whole : b.readable.length = b.readableBytes := wellFormed.length_readable
      have returned := wellFormed.retrieveAsString (Nat.le_refl b.readableBytes)
      have rest := wellFormed.retrieve b.readableBytes
      refine .inl ⟨_, _, returned, rest.1, ?_⟩
      rw [rest.2, ← whole, List.drop_length, List.take_length]
      rfl
  | retrieveAsString len =>
      have rest := wellFormed.retrieve len
      exact .inl ⟨_, _, wellFormed.retrieveAsString admissible, rest.1,
        by simp [Operation.onQueue, rest.2]⟩
  | readFd answer =>
      cases answer with
      | failed errno =>
          exact .inl ⟨b, [], rfl, wellFormed, rfl⟩
      | received bytes =>
          rcases wellFormed.readFd admissible 0 with
            ⟨next, returned, formed, contents⟩ | ⟨left, raised, large⟩
          · exact .inl ⟨next, [], by simp only [Buffer.perform, returned]; rfl, formed,
              by simp [Operation.onQueue, contents]⟩
          · exact .inr ⟨left, by simp only [Buffer.perform, raised]; rfl, large⟩

theorem traffic_step {state next : Traffic} {operation : Operation}
    (wellFormed : state.buffer.WellFormed)
    (admissible : state.buffer.Admissible operation)
    (stepped : traffic.step state operation = some next) :
    next.buffer.WellFormed ∧
      (next.buffer.readable, next.extracted) =
        operation.onTraffic (state.buffer.readable, state.extracted) := by
  rcases wellFormed.perform admissible with
    ⟨after, result, returned, formed, onQueue⟩ | ⟨left, raised, _⟩
  · simp only [traffic, returned, Option.some.injEq] at stepped
    subst stepped
    refine ⟨formed, ?_⟩
    simp only [Operation.onTraffic, ← onQueue]
  · simp [traffic, raised] at stepped

/-- Every admissible run keeps the layout and hands back what the queue would. -/
theorem traffic_refines_queue {initalSize : Nat} {fresh : Buffer}
    (fits : kCheapPrepend + initalSize < sizeModulus)
    (made : make initalSize = .ok fresh)
    {operations : List Operation} {state : Traffic}
    (admissible : traffic.Guarded (fun before operation =>
      before.buffer.Admissible operation) ⟨fresh, []⟩ operations)
    (run : traffic.exec ⟨fresh, []⟩ operations = some state) :
    state.buffer.WellFormed ∧
      (state.buffer.readable, state.extracted) =
        operations.foldl Operation.onTraffic ([], []) := by
  have initially := make_wellFormed fits made
  have kept : ∀ before operation after, before.buffer.WellFormed →
      before.buffer.Admissible operation → traffic.step before operation = some after →
        after.buffer.WellFormed :=
    fun _ _ _ formed allowed stepped => (traffic_step formed allowed stepped).1
  refine ⟨Machine.exec_guarded_invariant (fun state : Traffic => state.buffer.WellFormed)
    kept initially.1 admissible run, ?_⟩
  have refined := Machine.exec_refines
    (fun state : Traffic => (state.buffer.readable, state.extracted))
    Operation.onTraffic (fun state : Traffic => state.buffer.WellFormed) kept
    (fun _ _ _ formed allowed stepped => (traffic_step formed allowed stepped).2)
    initially.1 admissible run
  simpa only [initially.2] using refined

/-- The buffer is a FIFO byte queue: in every state of an admissible run the
layout holds and the readable bytes are the queue's; from there no admissible
operation copies outside `buffer_`, an operation fails only for a vector larger
than `max_size()`, reserving reserves without touching the readable bytes, and
a failed `readv` changes nothing. -/
theorem buffer_refines_fifo_queue {initalSize : Nat} {fresh : Buffer}
    (fits : kCheapPrepend + initalSize < sizeModulus)
    (made : make initalSize = .ok fresh)
    (operations : List Operation) (state : Traffic)
    (admissible : traffic.Guarded (fun before operation =>
      before.buffer.Admissible operation) ⟨fresh, []⟩ operations)
    (run : traffic.exec ⟨fresh, []⟩ operations = some state) :
    (kCheapPrepend ≤ state.buffer.readerIndex ∧
      state.buffer.readerIndex ≤ state.buffer.writerIndex ∧
      state.buffer.writerIndex ≤ state.buffer.buffer.length) ∧
    (state.buffer.readable, state.extracted) =
      operations.foldl Operation.onTraffic ([], []) ∧
    (∀ operation, state.buffer.Admissible operation → ∀ raised,
      state.buffer.perform operation = .error raised →
        raised.fault = .lengthError ∧
          maxSize < state.buffer.writerIndex + operation.demand) ∧
    (∀ len, state.buffer.Fits len → ∀ roomy,
      state.buffer.ensureWritableBytes len = .ok roomy →
        len ≤ roomy.writableBytes ∧ roomy.readable = state.buffer.readable) ∧
    (∀ saveErrno errno, state.buffer.readFd saveErrno (.failed errno) =
      .ok (state.buffer, -1, errno)) := by
  rcases traffic_refines_queue fits made admissible run with ⟨wellFormed, queue⟩
  refine ⟨⟨wellFormed.reserved, wellFormed.ordered, wellFormed.inside⟩, queue, ?_, ?_,
    fun _ _ => rfl⟩
  · intro operation allowed raised failed
    rcases wellFormed.perform allowed with ⟨_, _, returned, _⟩ | ⟨left, raisedHere, large⟩
    · rw [returned] at failed
      cases failed
    · rw [raisedHere] at failed
      cases failed
      exact ⟨rfl, large⟩
  · intro len allowed roomy ensured
    rcases wellFormed.ensureWritableBytes allowed with
      ⟨found, returned, _, room, bytes, _⟩ | ⟨raised, _⟩
    · rw [returned] at ensured
      cases ensured
      exact ⟨room, bytes⟩
    · rw [raised] at ensured
      cases ensured

/-- An append that grows the vector, one that slides the readable bytes to the
front, and a `readv`. -/
def growAndSlide : List Operation :=
  [.append [1, 2, 3], .retrieveAsString 2, .append [4, 5], .readFd (.received [6, 7]),
    .retrieve 3, .ensureWritableBytes 4, .retrieveAllAsString]

theorem buffer_refines_fifo_queue_growAndSlide :
    ∃ state, traffic.exec ⟨⟨List.replicate 10 0, 8, 8⟩, []⟩ growAndSlide = some state ∧
      (state.buffer.readable, state.extracted) =
        growAndSlide.foldl Operation.onTraffic ([], []) :=
  ⟨_, rfl, (buffer_refines_fifo_queue (by decide)
    (rfl : make 2 = .ok ⟨List.replicate 10 0, 8, 8⟩) growAndSlide _
    (by decide +kernel) rfl).2.1⟩

end Buffer

end Lucky
