import Lucky.Server.System

/-!
# The connection table

`connections_` maps names to connections, and `nextConnId_` is an `int` that
wraps.  As the printed name is never cut off, connections accepted fewer than
`2 ^ 32` accepts apart have different names.  So, as long as no connection
outlives that window, every entry belongs to the connection of that name, and no
accept or removal touches the entry of another one.
-/

namespace Lucky

open Systems

/-- `%d` of an `int`. -/
def printInt (number : Int) : List Char :=
  if number < 0 then '-' :: decimal number.natAbs else decimal number.natAbs

theorem dash_notMem_decimal (number : Nat) : '-' ∉ decimal number := by
  intro membership
  have digit := Nat.isDigit_of_mem_toDigits (by decide) (by decide) membership
  exact absurd digit (by decide)

theorem printInt_injective {first second : Int} (same : printInt first = printInt second) :
    first = second := by
  have mixed {negative nonnegative : Nat} : '-' :: decimal negative ≠ decimal nonnegative := by
    intro equal
    apply dash_notMem_decimal nonnegative
    rw [← equal]
    exact List.mem_cons_self
  unfold printInt at same
  split at same <;> split at same
  · have digits := decimal_injective (List.cons.inj same).2
    omega
  · exact absurd same mixed
  · exact absurd same.symm mixed
  · have digits := decimal_injective same
    omega

theorem length_printInt_le {number : Int} (small : number.natAbs < 10 ^ 10) :
    (printInt number).length ≤ 11 := by
  have digits : (decimal number.natAbs).length ≤ 10 := length_decimal_le (by decide) small
  unfold printInt
  split
  · rw [List.length_cons]
    omega
  · omega

namespace Server

/-- `nextConnId_` before the accept with this number. -/
def connId (accept : Nat) : BitVec 32 := BitVec.ofNat 32 (accept + 1)

theorem connId_ne {first second : Nat} (before : first < second)
    (near : second < first + 2 ^ 32) : connId first ≠ connId second := by
  intro same
  have residues := congrArg BitVec.toNat same
  simp only [connId, BitVec.toNat_ofNat] at residues
  omega

/-- The text `newConnection` prints into its buffer. -/
def connText (address : Address) (nextConnId : BitVec 32) : List Char :=
  '-' :: address.toIpPort ++ '#' :: printInt nextConnId.toInt

/-- The `connName` of `newConnection`, whose buffer has 64 bytes. -/
def Config.acceptName (config : Config) (nextConnId : BitVec 32) : List Char :=
  config.name ++ snprintf 64 (connText config.address nextConnId)

theorem Config.acceptName_eq (config : Config) (nextConnId : BitVec 32) :
    config.acceptName nextConnId = config.name ++ connText config.address nextConnId := by
  have number : (printInt nextConnId.toInt).length ≤ 11 := by
    apply length_printInt_le
    have upper := BitVec.toInt_lt (x := nextConnId)
    have lower := BitVec.le_toInt (x := nextConnId)
    omega
  have ipPort := config.address.length_toIpPort_le
  rw [acceptName, snprintf, List.take_of_length_le]
  simp only [connText, List.length_append, List.length_cons]
  omega

theorem Config.acceptName_injective (config : Config) {first second : BitVec 32}
    (same : config.acceptName first = config.acceptName second) : first = second := by
  rw [acceptName_eq, acceptName_eq] at same
  have texts := List.append_cancel_left same
  rw [connText, connText] at texts
  have tails := List.append_cancel_left texts
  exact BitVec.eq_of_toInt_eq (printInt_injective (List.cons.inj tails).2)

/-- The names in the system of loops, where the number does not wrap. -/
theorem Config.acceptName_of_small (config : Config) {number : Nat} (small : number < 2 ^ 31) :
    config.acceptName (BitVec.ofNat 32 number) =
      connName config.name config.address.toIpPort number := by
  have value : (BitVec.ofNat 32 number).toInt = number := by
    rw [BitVec.toInt_eq_toNat_of_lt] <;> rw [BitVec.toNat_ofNat] <;> omega
  rw [acceptName, connText, value, connName, printInt, if_neg (by omega), Int.natAbs_natCast]

/-- The main loop's part of the server: `connections_`, with the names of all accepted
connections in order and the ones that have been removed. -/
structure Table where
  nextConnId : BitVec 32
  connections : List Char → Option Nat
  names : List (List Char)
  removed : List Nat

namespace Table

def make : Table := ⟨1, fun _ => none, [], []⟩

inductive Action where
  | newConnection
  /-- `removeConnectionInLoop` of the connection with this number. -/
  | removeConnectionInLoop (conn : Nat)
  deriving DecidableEq, Repr

def newConnection (config : Config) (t : Table) : Table where
  nextConnId := t.nextConnId + 1
  connections := Function.update t.connections (config.acceptName t.nextConnId)
    (some t.names.length)
  names := t.names ++ [config.acceptName t.nextConnId]
  removed := t.removed

/-- `connections_.erase(conn->getName())`. -/
def erase (t : Table) (conn : Nat) (name : List Char) : Table :=
  { t with connections := Function.update t.connections name none, removed := conn :: t.removed }

def step (config : Config) (t : Table) : Action → Option Table
  | .newConnection => some (t.newConnection config)
  | .removeConnectionInLoop conn => t.names[conn]?.map (t.erase conn)

/-- The accepts and removals the main loop runs, in any order. -/
def runs (config : Config) : Machine Table Action := ⟨step config⟩

/-- Accepted and not yet removed. -/
def Live (t : Table) (conn : Nat) : Prop := conn < t.names.length ∧ conn ∉ t.removed

/-- No connection is still in the table `2 ^ 32` accepts after it, and each is removed
fewer than `2 ^ 32` accepts after its own. -/
def InWindow (t : Table) : Action → Prop
  | .newConnection => ∀ name conn, t.connections name = some conn →
      t.names.length < conn + 2 ^ 32
  | .removeConnectionInLoop conn => t.names.length ≤ conn + 2 ^ 32

/-- Accepts are named and numbered in order. -/
structure Numbered (config : Config) (t : Table) : Prop where
  next : t.nextConnId = connId t.names.length
  named : ∀ conn < t.names.length, t.names[conn]? = some (config.acceptName (connId conn))

/-- The entries are the live connections, each under its name. -/
def Exact (t : Table) : Prop :=
  ∀ name conn, t.connections name = some conn ↔ t.Live conn ∧ t.names[conn]? = some name

variable {config : Config} {t u : Table}

theorem make_numbered (config : Config) : Numbered config make :=
  ⟨rfl, fun _ outside => absurd outside (Nat.not_lt_zero _)⟩

theorem Numbered.step (numbered : Numbered config t) {action : Action}
    (stepped : t.step config action = some u) : Numbered config u := by
  cases action with
  | newConnection =>
      cases stepped
      refine ⟨?_, ?_⟩
      · simp only [newConnection, numbered.next, connId, List.length_append, List.length_singleton]
        exact (BitVec.ofNat_add (t.names.length + 1) 1).symm
      · intro conn inside
        simp only [newConnection, List.length_append, List.length_singleton] at inside ⊢
        by_cases last : conn = t.names.length
        · subst last
          simp [numbered.next]
        · rw [List.getElem?_append_left (by omega)]
          exact numbered.named conn (by omega)
  | removeConnectionInLoop conn =>
      obtain ⟨name, _, rfl⟩ := Option.map_eq_some_iff.mp stepped
      exact ⟨numbered.next, numbered.named⟩

/-- Connections fewer than `2 ^ 32` accepts apart have different names. -/
theorem Numbered.apart (numbered : Numbered config t) {first second : Nat}
    (different : first ≠ second) (firstIn : first < t.names.length)
    (secondIn : second < t.names.length) (near : second < first + 2 ^ 32)
    (close : first < second + 2 ^ 32) : t.names[first]? ≠ t.names[second]? := by
  rw [numbered.named first firstIn, numbered.named second secondIn]
  intro same
  have ids := config.acceptName_injective (Option.some.inj same)
  rcases Nat.lt_or_gt_of_ne different with before | after
  · exact connId_ne before near ids
  · exact connId_ne after close ids.symm

/-- What a run within the window keeps. -/
structure Kept (config : Config) (t : Table) : Prop extends Numbered config t where
  removed : ∀ conn ∈ t.removed, conn < t.names.length
  faithful : Exact t
  recent : ∀ conn, t.Live conn → t.names.length ≤ conn + 2 ^ 32

theorem make_kept (config : Config) : Kept config make := by
  refine ⟨make_numbered config, by simp [make], ?_, ?_⟩
  · intro name conn
    simp [make, Live]
  · rintro conn ⟨inside, _⟩
    exact absurd inside (Nat.not_lt_zero conn)

/-- Within the window the name of the next connection is not in the table. -/
theorem Kept.fresh (kept : Kept config t) (window : t.InWindow .newConnection) :
    t.connections (config.acceptName t.nextConnId) = none := by
  rw [Option.eq_none_iff_forall_ne_some]
  intro conn found
  obtain ⟨⟨inside, _⟩, named⟩ := (kept.faithful _ conn).mp found
  rw [kept.named conn inside, kept.next] at named
  have ids := config.acceptName_injective (Option.some.inj named)
  exact connId_ne inside (window _ conn found) ids

theorem Kept.newConnection (kept : Kept config t) (window : t.InWindow .newConnection) :
    Kept config (t.newConnection config) := by
  have fresh := kept.fresh window
  have stepped : t.step config .newConnection = some (t.newConnection config) := rfl
  have numbered : Numbered config (t.newConnection config) := kept.toNumbered.step stepped
  have length : (t.newConnection config).names.length = t.names.length + 1 := by
    simp [Table.newConnection]
  have older {conn : Nat} (inside : conn < t.names.length) :
      (t.newConnection config).names[conn]? = t.names[conn]? :=
    List.getElem?_append_left inside
  have newest : (t.newConnection config).names[t.names.length]? =
      some (config.acceptName t.nextConnId) := by
    simp [Table.newConnection]
  have unremoved : t.names.length ∉ t.removed := fun removed =>
    Nat.lt_irrefl _ (kept.removed _ removed)
  have live (conn : Nat) : (t.newConnection config).Live conn ↔
      t.Live conn ∨ conn = t.names.length := by
    rw [Live, Live, length]
    constructor
    · rintro ⟨inside, present⟩
      rcases Nat.lt_succ_iff_lt_or_eq.mp inside with earlier | last
      · exact .inl ⟨earlier, present⟩
      · exact .inr last
    · rintro (⟨inside, present⟩ | rfl)
      · exact ⟨Nat.lt_succ_of_lt inside, present⟩
      · exact ⟨Nat.lt_succ_self _, unremoved⟩
  refine ⟨numbered, ?_, ?_, ?_⟩
  · intro conn removed
    rw [length]
    exact Nat.lt_succ_of_lt (kept.removed conn removed)
  · intro name conn
    rw [live]
    by_cases new : name = config.acceptName t.nextConnId
    · subst new
      simp only [Table.newConnection, Function.update_self, Option.some.injEq]
      constructor
      · rintro rfl
        exact ⟨.inr rfl, newest⟩
      · rintro ⟨present | rfl, named⟩
        · have found := (kept.faithful _ conn).mpr ⟨present, older present.1 ▸ named⟩
          rw [fresh] at found
          cases found
        · rfl
    · have same : (t.newConnection config).connections name = t.connections name :=
        Function.update_of_ne new _ _
      rw [same, kept.faithful]
      constructor
      · rintro ⟨present, named⟩
        exact ⟨.inl present, (older present.1).trans named⟩
      · rintro ⟨present | rfl, named⟩
        · exact ⟨present, (older present.1).symm.trans named⟩
        · rw [newest] at named
          exact absurd (Option.some.inj named).symm new
  · intro conn present
    rw [length]
    rcases (live conn).mp present with earlier | rfl
    · obtain ⟨name, named⟩ : ∃ name, t.names[conn]? = some name :=
        ⟨_, List.getElem?_eq_getElem earlier.1⟩
      exact window name conn ((kept.faithful name conn).mpr ⟨earlier, named⟩)
    · omega

theorem Kept.erase (kept : Kept config t) {conn : Nat} {name : List Char}
    (named : t.names[conn]? = some name) (window : t.InWindow (.removeConnectionInLoop conn)) :
    Kept config (t.erase conn name) := by
  have inside : conn < t.names.length := (List.getElem?_eq_some_iff.mp named).1
  have live (other : Nat) : (t.erase conn name).Live other ↔ t.Live other ∧ other ≠ conn := by
    simp only [Live, Table.erase, List.mem_cons, not_or]
    constructor
    · rintro ⟨bound, apart, present⟩
      exact ⟨⟨bound, present⟩, apart⟩
    · rintro ⟨⟨bound, present⟩, apart⟩
      exact ⟨bound, apart, present⟩
  refine ⟨⟨kept.next, kept.named⟩, ?_, ?_, ?_⟩
  · intro other removed
    rcases List.mem_cons.mp removed with rfl | earlier
    · exact inside
    · exact kept.removed other earlier
  · intro text other
    rw [live]
    by_cases same : text = name
    · subst same
      simp only [Table.erase, Function.update_self, reduceCtorEq, false_iff]
      rintro ⟨⟨present, apart⟩, namedOther⟩
      -- another live connection of that name would be within the window
      have recent := kept.recent other present
      have window : t.names.length ≤ conn + 2 ^ 32 := window
      exact kept.apart apart present.1 inside (by omega) (by have := present.1; omega)
        (namedOther.trans named.symm)
    · have unchanged : (t.erase conn name).connections text = t.connections text :=
        Function.update_of_ne same _ _
      rw [unchanged, kept.faithful]
      constructor
      · rintro ⟨present, namedOther⟩
        refine ⟨⟨present, ?_⟩, namedOther⟩
        rintro rfl
        rw [named] at namedOther
        exact same (Option.some.inj namedOther).symm
      · rintro ⟨⟨present, _⟩, namedOther⟩
        exact ⟨present, namedOther⟩
  · intro other present
    exact kept.recent other ((live other).mp present).1

theorem Kept.step (kept : Kept config t) {action : Action} (window : t.InWindow action)
    (stepped : t.step config action = some u) : Kept config u := by
  cases action with
  | newConnection =>
      cases stepped
      exact kept.newConnection window
  | removeConnectionInLoop conn =>
      obtain ⟨name, named, rfl⟩ := Option.map_eq_some_iff.mp stepped
      exact kept.erase named window

/-- In every run, connections accepted fewer than `2 ^ 32` accepts apart have different
names, none of them cut off.  In a run within the window the entries are exactly the
live connections, each under its name; the next accept finds its name unused, and
removing a connection, again or late, leaves the entries of all others. -/
theorem table_exact (config : Config) {actions : List Action}
    (run : (runs config).exec make actions = some t) :
    (∀ first second, first < second → second < t.names.length → second < first + 2 ^ 32 →
      t.names[first]? ≠ t.names[second]?) ∧
    (∀ conn < t.names.length, t.names[conn]? =
      some (config.name ++ connText config.address (connId conn))) ∧
    ((runs config).Guarded InWindow make actions →
      (∀ name conn, t.connections name = some conn ↔
        t.Live conn ∧ t.names[conn]? = some name) ∧
      (t.InWindow .newConnection → t.connections (config.acceptName t.nextConnId) = none) ∧
      ∀ conn u, t.InWindow (.removeConnectionInLoop conn) →
        (runs config).step t (.removeConnectionInLoop conn) = some u →
          ∀ name other, t.connections name = some other → other ≠ conn →
            u.connections name = some other) := by
  have numbered : Numbered config t := Machine.exec_invariant
    (fun _ _ _ kept stepped => kept.step stepped) (make_numbered config) run
  refine ⟨?_, ?_, ?_⟩
  · intro first second before inside near
    exact numbered.apart (Nat.ne_of_lt before) (by omega) inside near (by omega)
  · intro conn inside
    rw [numbered.named conn inside, config.acceptName_eq]
  · intro guarded
    have kept : Kept config t := Machine.exec_guarded_invariant (Kept config)
      (fun _ _ _ kept window stepped => kept.step window stepped) (make_kept config) guarded run
    refine ⟨kept.faithful, kept.fresh, ?_⟩
    intro conn u window stepped name other found apart
    obtain ⟨present, named⟩ := (kept.faithful name other).mp found
    have after := kept.step window stepped
    apply (after.faithful name other).mpr
    obtain ⟨text, _, rfl⟩ := Option.map_eq_some_iff.mp stepped
    exact ⟨⟨present.1, by simpa [Table.erase] using ⟨apart, present.2⟩⟩, named⟩

/-- A run with no more than `2 ^ 32` calls does not leave the window. -/
theorem inWindow_of_short {actions : List Action}
    (short : t.names.length + actions.length ≤ 2 ^ 32) :
    (runs config).Guarded InWindow t actions := by
  induction actions generalizing t with
  | nil => trivial
  | cons action rest inductionHypothesis =>
      intro next stepped
      rw [List.length_cons] at short
      cases action with
      | newConnection =>
          cases stepped
          refine ⟨fun _ _ _ => by omega, inductionHypothesis ?_⟩
          simp only [newConnection, List.length_append, List.length_singleton]
          omega
      | removeConnectionInLoop conn =>
          obtain ⟨name, _, rfl⟩ := Option.map_eq_some_iff.mp stepped
          refine ⟨?_, inductionHypothesis ?_⟩
          · change t.names.length ≤ conn + 2 ^ 32
            omega
          · change t.names.length + rest.length ≤ 2 ^ 32
            omega

/-- The first connection is removed twice, the second time after the third accept. -/
def removedTwice : List Action :=
  [.newConnection, .newConnection, .removeConnectionInLoop 0, .newConnection,
    .removeConnectionInLoop 0]

theorem table_exact_removedTwice :
    ∃ t, (runs ⟨['s'], ⟨fun _ => 0, 80⟩⟩).exec make removedTwice = some t ∧
      ∀ name conn, t.connections name = some conn ↔
        t.Live conn ∧ t.names[conn]? = some name := by
  obtain ⟨t, run⟩ : ∃ t,
      (runs ⟨['s'], ⟨fun _ => 0, 80⟩⟩).exec make removedTwice = some t :=
    ⟨_, rfl⟩
  have short : (make.names.length + removedTwice.length) ≤ 2 ^ 32 := by decide
  exact ⟨t, run, ((table_exact _ run).2.2 (inWindow_of_short short)).1⟩

end Table

end Server

end Lucky
