import Lucky.Buffer.Growth
import Lucky.Buffer.Queue

/-!
# Everything that happens to a buffer

Runs of all operations, also of those that throw: a `length_error` leaves a buffer
that goes on being used, and `retrieveAsString` may be asked for more bytes than are
there.  The ledger of a run keeps what went into the buffer, what its strings have
handed out, and the largest demand for room.
-/

namespace Lucky

open Systems

namespace Buffer

/-- What the operation puts into the buffer. -/
def Operation.input : Operation → List Byte
  | .append data => data
  | .readFd (.received bytes) => bytes
  | .ensureWritableBytes _ | .retrieve _ | .retrieveAll | .retrieveAllAsString
  | .retrieveAsString _ | .readFd (.failed _) => []

/-- The room the operation asks for; for `readFd`, the bytes received. -/
def Operation.request? : Operation → Option Nat
  | .append data => some data.length
  | .ensureWritableBytes len => some len
  | .readFd (.received bytes) => some bytes.length
  | .retrieve _ | .retrieveAll | .retrieveAllAsString | .retrieveAsString _
  | .readFd (.failed _) => none

/-- What the operation has put into the buffer when it throws: `readFd` has filled the
free cells by then. -/
def stored (b : Buffer) : Operation → List Byte
  | .readFd (.received bytes) => bytes.take b.writableBytes
  | _ => []

/-- An operation that returns or throws, with the bytes it has put into the buffer and
the string it has handed out. -/
structure Settled where
  buffer : Buffer
  input : List Byte
  result : List Byte
  deriving DecidableEq, Repr

/-- The outcome of an operation; `none` where it accesses memory outside `buffer_`. -/
def settle (b : Buffer) (operation : Operation) : Option Settled :=
  match b.perform operation with
  | .ok (next, result) => some ⟨next, operation.input, result⟩
  | .error ⟨.lengthError, left⟩ => some ⟨left, b.stored operation, []⟩
  | .error _ => none

theorem settle_of_ok {b next : Buffer} {operation : Operation} {result : List Byte}
    (performed : b.perform operation = .ok (next, result)) :
    b.settle operation = some ⟨next, operation.input, result⟩ := by
  rw [settle, performed]

theorem settle_of_throw {b left : Buffer} {operation : Operation}
    (performed : b.perform operation = .error ⟨.lengthError, left⟩) :
    b.settle operation = some ⟨left, b.stored operation, []⟩ := by
  rw [settle, performed]

structure Ledger where
  buffer : Buffer
  received : List Byte
  extracted : List Byte
  /-- The largest value of the readable bytes plus the room asked for. -/
  peak : Nat
  deriving DecidableEq, Repr

def Ledger.make (b : Buffer) : Ledger := ⟨b, [], [], 0⟩

def peakAfter (b : Buffer) (operation : Operation) (peak : Nat) : Nat :=
  match operation.request? with
  | some len => max peak (b.readableBytes + len)
  | none => peak

def ledgers : Machine Ledger Operation where
  step ledger operation :=
    (ledger.buffer.settle operation).map fun settled => {
      buffer := settled.buffer
      received := ledger.received ++ settled.input
      extracted := ledger.extracted ++ settled.result
      peak := ledger.buffer.peakAfter operation ledger.peak }

/-- What callers and the kernel keep to, but for the length a string is asked for. -/
def Proper (b : Buffer) : Operation → Prop
  | .retrieveAsString _ => True
  | operation => b.Admissible operation

instance (b : Buffer) : DecidablePred b.Proper
  | .retrieveAsString _ => isTrue trivial
  | .append data => inferInstanceAs (Decidable (b.Admissible (.append data)))
  | .ensureWritableBytes len =>
      inferInstanceAs (Decidable (b.Admissible (.ensureWritableBytes len)))
  | .readFd answer => inferInstanceAs (Decidable (b.Admissible (.readFd answer)))
  | .retrieve _ | .retrieveAll | .retrieveAllAsString => isTrue trivial

/-- A string is asked for bytes that are there. -/
def Available (b : Buffer) : Operation → Prop
  | .retrieveAsString len => len ≤ b.readableBytes
  | _ => True

instance (b : Buffer) : DecidablePred b.Available
  | .retrieveAsString len => inferInstanceAs (Decidable (len ≤ b.readableBytes))
  | .append _ | .ensureWritableBytes _ | .retrieve _ | .retrieveAll | .retrieveAllAsString
  | .readFd _ => isTrue trivial

/-- What one operation does to a well-formed buffer, whether it returns or throws. -/
structure Accounted (b : Buffer) (operation : Operation) (settled : Settled) : Prop where
  wellFormed : settled.buffer.WellFormed
  drawn : b.Available operation →
    (settled.result ++ settled.buffer.readable).Sublist (b.readable ++ settled.input)
  grown : settled.buffer.buffer.length ≤ b.buffer.length ∨
    ∃ len ∈ operation.request?,
      settled.buffer.buffer.length ≤ 2 * (b.readableBytes + len) + kCheapPrepend

namespace WellFormed

variable {b : Buffer}

/-- An operation that throws, or has no effect, leaves the buffer as it is. -/
theorem accounted_self (wellFormed : b.WellFormed) (operation : Operation) (input : List Byte) :
    b.Accounted operation ⟨b, input, []⟩ :=
  ⟨wellFormed, fun _ => List.sublist_append_left _ _, .inl (Nat.le_refl _)⟩

theorem retrieve_accounted (wellFormed : b.WellFormed) (operation : Operation) (len : Nat)
    {result : List Byte} (drawn : b.Available operation → result = [] ∨
      result = b.readable.take len) :
    b.Accounted operation ⟨b.retrieve len, [], result⟩ := by
  obtain ⟨formed, contents⟩ := wellFormed.retrieve len
  refine ⟨formed, fun available => ?_, .inl ?_⟩
  · simp only [contents, List.append_nil]
    rcases drawn available with nothing | first
    · rw [nothing]
      exact List.drop_sublist len b.readable
    · simp only [first, List.take_append_drop, List.Sublist.refl]
  · unfold Buffer.retrieve
    split <;> exact Nat.le_refl _

theorem append_accounted (wellFormed : b.WellFormed) {data : List Byte}
    (fits : b.Fits data.length) {settled : Settled}
    (settles : b.settle (.append data) = some settled) :
    b.Accounted (.append data) settled := by
  rcases wellFormed.append fits with ⟨next, returned, formed, contents⟩ | ⟨raised, _⟩
  · have performed : b.perform (.append data) = .ok (next, []) := by
      simp only [Buffer.perform, returned]
      rfl
    cases settles.symm.trans (settle_of_ok performed)
    refine ⟨formed, fun _ => ?_, ?_⟩
    · simp [contents, Operation.input]
    · exact (wellFormed.append_grown fits returned).imp_right fun grown => ⟨_, rfl, grown⟩
  · have performed : b.perform (.append data) = .error ⟨.lengthError, b⟩ := by
      simp only [Buffer.perform, raised]
      rfl
    cases settles.symm.trans (settle_of_throw performed)
    exact wellFormed.accounted_self _ _

theorem ensureWritableBytes_accounted (wellFormed : b.WellFormed) {len : Nat}
    (fits : b.Fits len) {settled : Settled}
    (settles : b.settle (.ensureWritableBytes len) = some settled) :
    b.Accounted (.ensureWritableBytes len) settled := by
  rcases wellFormed.ensureWritableBytes fits with
    ⟨roomy, returned, formed, _, contents, _⟩ | ⟨raised, _⟩
  · have performed : b.perform (.ensureWritableBytes len) = .ok (roomy, []) := by
      simp only [Buffer.perform, returned]
      rfl
    cases settles.symm.trans (settle_of_ok performed)
    refine ⟨formed, fun _ => ?_, ?_⟩
    · simp [contents, Operation.input]
    · exact (wellFormed.ensureWritableBytes_grown fits returned).imp_right
        fun grown => ⟨_, rfl, grown⟩
  · have performed : b.perform (.ensureWritableBytes len) = .error ⟨.lengthError, b⟩ := by
      simp only [Buffer.perform, raised]
      rfl
    cases settles.symm.trans (settle_of_throw performed)
    exact wellFormed.accounted_self _ _

theorem readFd_accounted (wellFormed : b.WellFormed) {bytes : List Byte}
    (received : bytes.length ≤ b.iovTotal) {settled : Settled}
    (settles : b.settle (.readFd (.received bytes)) = some settled) :
    b.Accounted (.readFd (.received bytes)) settled := by
  obtain ⟨filled, formed, length, contents, ⟨all, returned⟩ | ⟨_, _, fits, appends⟩⟩ :=
    wellFormed.readFd_fill received 0
  · have performed : b.perform (.readFd (.received bytes)) = .ok (filled, []) := by
      simp only [Buffer.perform, returned]
      rfl
    cases settles.symm.trans (settle_of_ok performed)
    rw [List.take_of_length_le all] at contents
    exact ⟨formed, fun _ => by simp [contents, Operation.input], .inl (Nat.le_of_eq length)⟩
  · rcases formed.append fits with ⟨next, appended, nextFormed, nextContents⟩ | ⟨throws, _⟩
    · have returned : b.readFd 0 (.received bytes) = .ok (next, bytes.length, 0) := by
        rw [appends, appended]
        rfl
      have performed : b.perform (.readFd (.received bytes)) = .ok (next, []) := by
        simp only [Buffer.perform, returned]
        rfl
      cases settles.symm.trans (settle_of_ok performed)
      refine ⟨nextFormed, fun _ => ?_, ?_⟩
      · simp [nextContents, contents, Operation.input]
      · exact (wellFormed.readFd_grown received returned).imp_right
          fun grown => ⟨_, rfl, grown⟩
    · have raised : b.readFd 0 (.received bytes) = .error ⟨.lengthError, filled⟩ := by
        rw [appends, throws]
        rfl
      have performed :
          b.perform (.readFd (.received bytes)) = .error ⟨.lengthError, filled⟩ := by
        simp only [Buffer.perform, raised]
        rfl
      cases settles.symm.trans (settle_of_throw performed)
      exact ⟨formed, fun _ => by simp [contents, stored], .inl (Nat.le_of_eq length)⟩

/-- One operation keeps the layout, draws on what is in the buffer, and grows the buffer
by no more than its demand allows. -/
theorem accounted (wellFormed : b.WellFormed) {operation : Operation}
    (proper : b.Proper operation) {settled : Settled}
    (settles : b.settle operation = some settled) : b.Accounted operation settled := by
  cases operation with
  | append data => exact wellFormed.append_accounted proper settles
  | ensureWritableBytes len => exact wellFormed.ensureWritableBytes_accounted proper settles
  | retrieve len =>
      cases settles
      exact wellFormed.retrieve_accounted _ len fun _ => .inl rfl
  | retrieveAll =>
      cases settles
      refine ⟨wellFormed.retrieveAll, fun _ => ?_, .inl (Nat.le_refl _)⟩
      simp [Buffer.retrieveAll, readable]
  | retrieveAllAsString =>
      have returned := wellFormed.retrieveAsString (Nat.le_refl b.readableBytes)
      simp only [settle, Buffer.perform, Buffer.retrieveAllAsString, returned,
        Option.some.injEq] at settles
      rw [← settles]
      exact wellFormed.retrieve_accounted _ _ fun _ => .inr rfl
  | retrieveAsString len =>
      cases copied : b.copyOut len with
      | ok result =>
          have performed : b.perform (.retrieveAsString len) = .ok (b.retrieve len, result) := by
            simp only [Buffer.perform, Buffer.retrieveAsString, copied]
            rfl
          cases settles.symm.trans (settle_of_ok performed)
          refine wellFormed.retrieve_accounted _ len fun available => .inr ?_
          have returned := wellFormed.retrieveAsString available
          rw [Buffer.retrieveAsString, copied] at returned
          cases returned
          rfl
      | error raised =>
          have performed : b.perform (.retrieveAsString len) = .error raised := by
            simp only [Buffer.perform, Buffer.retrieveAsString, copied]
            rfl
          rw [settle, performed] at settles
          unfold copyOut at copied
          split at copied
          · cases copied
            cases settles
            exact wellFormed.accounted_self _ _
          · split at copied <;> cases copied
            cases settles
  | readFd answer =>
      cases answer with
      | failed errno =>
          cases settles
          exact wellFormed.accounted_self _ _
      | received bytes => exact wellFormed.readFd_accounted proper settles

end WellFormed

theorem ledgers_step {ledger next : Ledger} {operation : Operation}
    (wellFormed : ledger.buffer.WellFormed) (proper : ledger.buffer.Proper operation)
    (stepped : ledgers.step ledger operation = some next) :
    ∃ settled, ledger.buffer.Accounted operation settled ∧ next = {
      buffer := settled.buffer
      received := ledger.received ++ settled.input
      extracted := ledger.extracted ++ settled.result
      peak := ledger.buffer.peakAfter operation ledger.peak } := by
  obtain ⟨settled, settles, rfl⟩ := Option.map_eq_some_iff.mp stepped
  exact ⟨settled, wellFormed.accounted proper settles, rfl⟩

/-- Every state a run reaches has the layout. -/
theorem ledgers_wellFormed {fresh : Buffer} (formed : fresh.WellFormed)
    {operations : List Operation} {ledger : Ledger}
    (proper : ledgers.Guarded (fun before operation => before.buffer.Proper operation)
      (.make fresh) operations)
    (run : ledgers.exec (.make fresh) operations = some ledger) : ledger.buffer.WellFormed := by
  refine Machine.exec_guarded_invariant (fun state : Ledger => state.buffer.WellFormed)
    ?_ formed proper run
  intro state operation next wellFormed allowed stepped
  obtain ⟨settled, accounted, rfl⟩ := ledgers_step wellFormed allowed stepped
  exact accounted.wellFormed

/-! ## Bounded growth -/

/-- The demand so far bounds the buffer, which had `size` bytes to begin with. -/
structure WithinDemand (size : Nat) (ledger : Ledger) : Prop where
  wellFormed : ledger.buffer.WellFormed
  bounded : ledger.buffer.buffer.length ≤ max size (2 * ledger.peak + kCheapPrepend)

theorem WithinDemand.step {size : Nat} {ledger next : Ledger} {operation : Operation}
    (within : WithinDemand size ledger) (proper : ledger.buffer.Proper operation)
    (stepped : ledgers.step ledger operation = some next) : WithinDemand size next := by
  obtain ⟨settled, accounted, rfl⟩ := ledgers_step within.wellFormed proper stepped
  refine ⟨accounted.wellFormed, ?_⟩
  have bounded := within.bounded
  rcases accounted.grown with same | ⟨len, request, grown⟩
  · have later : ledger.peak ≤ ledger.buffer.peakAfter operation ledger.peak := by
      unfold peakAfter
      split
      · exact Nat.le_max_left _ _
      · exact Nat.le_refl _
    simp only
    omega
  · have counted : ledger.buffer.readableBytes + len ≤
        ledger.buffer.peakAfter operation ledger.peak := by
      unfold peakAfter
      rw [Option.mem_def.mp request]
      exact Nat.le_max_right _ _
    simp only
    omega

/-- The demands of a run are at most `bound`. -/
def AsksAtMost (bound : Nat) (ledger : Ledger) (operation : Operation) : Prop :=
  ∀ len ∈ operation.request?, ledger.buffer.readableBytes + len ≤ bound

instance (bound : Nat) (ledger : Ledger) (operation : Operation) :
    Decidable (AsksAtMost bound ledger operation) :=
  inferInstanceAs (Decidable (∀ len ∈ _, _))

theorem peakAfter_le {ledger : Ledger} {operation : Operation} {bound : Nat}
    (before : ledger.peak ≤ bound) (asks : AsksAtMost bound ledger operation) :
    ledger.buffer.peakAfter operation ledger.peak ≤ bound := by
  unfold peakAfter
  split
  next len request => exact Nat.max_le.mpr ⟨before, asks len request⟩
  next => exact before

theorem make_withinDemand {initalSize : Nat} {fresh : Buffer}
    (fits : kCheapPrepend + initalSize < sizeModulus) (made : make initalSize = .ok fresh) :
    WithinDemand (kCheapPrepend + initalSize) (.make fresh) := by
  refine ⟨(make_wellFormed fits made).1, Nat.le_trans (Nat.le_of_eq ?_) (Nat.le_max_left _ _)⟩
  unfold make at made
  split at made
  next =>
    cases made
    simp [Ledger.make, sizeAdd_of_lt fits]
  next => cases made

/-- In every state of a run the buffer is no larger than at the beginning, or than twice
the largest demand so far and the reserved cells; so a run with a bounded demand has a
bounded buffer. -/
theorem size_le_twice_peak {initalSize : Nat} {fresh : Buffer}
    (fits : kCheapPrepend + initalSize < sizeModulus) (made : make initalSize = .ok fresh)
    (operations : List Operation)
    (proper : ledgers.Guarded (fun before operation => before.buffer.Proper operation)
      (.make fresh) operations) :
    ledgers.Always (fun ledger => ledger.buffer.buffer.length ≤
      max (kCheapPrepend + initalSize) (2 * ledger.peak + kCheapPrepend))
      (.make fresh) operations ∧
    ∀ bound, ledgers.Guarded (AsksAtMost bound) (.make fresh) operations →
      ledgers.Always (fun ledger => ledger.buffer.buffer.length ≤
        max (kCheapPrepend + initalSize) (2 * bound + kCheapPrepend)) (.make fresh) operations := by
  have initially := make_withinDemand fits made
  refine ⟨?_, fun bound asks => ?_⟩
  · exact Machine.always_of_guarded
      (fun _ _ _ within allowed stepped => WithinDemand.step within allowed stepped)
      (fun _ within => within.bounded) initially proper
  · have kept : ∀ ledger operation next,
        WithinDemand (kCheapPrepend + initalSize) ledger ∧ ledger.peak ≤ bound →
        ledger.buffer.Proper operation ∧ AsksAtMost bound ledger operation →
        ledgers.step ledger operation = some next →
        WithinDemand (kCheapPrepend + initalSize) next ∧ next.peak ≤ bound := by
      rintro ledger operation next ⟨within, before⟩ ⟨allowed, asked⟩ stepped
      refine ⟨within.step allowed stepped, ?_⟩
      obtain ⟨settled, _, rfl⟩ := ledgers_step within.wellFormed allowed stepped
      exact peakAfter_le before asked
    apply Machine.always_of_guarded kept ?_ ⟨initially, Nat.zero_le bound⟩ (proper.and asks)
    rintro ledger ⟨within, before⟩
    have bounded := within.bounded
    omega

/-- Bytes stream through a buffer of ten cells, which slides twice and grows when five
bytes are read behind one that is left. -/
theorem size_le_twice_peak_streamed :
    ledgers.Always (fun ledger => ledger.buffer.buffer.length ≤ max (kCheapPrepend + 2)
      (2 * 6 + kCheapPrepend)) (.make ⟨List.replicate 10 0, 8, 8⟩)
      [.append [1, 2], .retrieve 1, .append [3], .retrieve 1, .append [4], .retrieve 1,
        .readFd (.received [5, 6, 7, 8, 9]), .retrieve 6, .ensureWritableBytes 4] :=
  (size_le_twice_peak (by decide) (rfl : make 2 = .ok ⟨List.replicate 10 0, 8, 8⟩) _
    (by decide +kernel)).2 6 (by decide +kernel)

end Buffer

end Lucky
