import Lucky.Server.Liveness
import Lucky.Server.Waiting

/-!
# Waiting output is sent

A connection with waiting bytes is monitored for writing, so a socket that can take
some is reported, `handleWrite` runs and less is left.  When all is sent a connection
that is being shut down has its write side closed.  Nothing of this depends on what
the other connections and threads do.
-/

namespace Lucky.Server

open Systems

theorem write_mem_handleEvent (f : Filed) {revents : Mask} (writes : revents &&& EPOLLOUT ≠ 0) :
    .write ∈ { f with revents := revents }.handleEvent (fun _ => true) true := by
  have last : .write ∈ Filed.callbacks (fun _ => true) revents := by
    apply List.mem_append_right
    rw [Bool.and_true, if_pos (bne_iff_ne.mpr writes)]
    exact List.mem_singleton_self _
  unfold Filed.handleEvent
  split
  · exact last
  · exact last

/-- No handler is passed over. -/
theorem Control.not_handling {before after : LoopState} (control : Control before after)
    {active : List (ConnId × Mask)} {entry : ConnId × Mask}
    (phase : before.phase = .handling active) (inside : entry ∈ active) : False := by
  cases control with
  | poll _ other | runNext other | finish other =>
      rw [phase] at other
      cases other
  | swap other =>
      rw [phase] at other
      cases other
      exact absurd inside List.not_mem_nil

/-- A connection that is being shut down, or closed, stays so. -/
theorem Routine.closing {s t : Session ConnId} {routine : Routine}
    (returned : routine.run s = .ok t) (established : routine ≠ .establish)
    (closing : s.connection.state = .kDisconnecting ∨ s.connection.state = .kDisconnected) :
    t.connection.state = .kDisconnecting ∨ t.connection.state = .kDisconnected := by
  have of_quiet (quiet : Session.Quiet s t) :
      t.connection.state = .kDisconnecting ∨ t.connection.state = .kDisconnected := by
    rcases quiet.state with same | ⟨_, disconnecting⟩
    · rw [same]
      exact closing
    · exact .inl disconnecting
  cases routine with
  | nothing =>
      cases returned
      exact closing
  | beginClose =>
      rw [(Session.beginClose_law returned).2.2]
      exact .inr rfl
  | handleRead readv =>
      obtain ⟨quiet, ended⟩ := Session.handleRead_law returned
      by_cases zero : readv.count = 0
      · obtain ⟨input, closes⟩ := ended zero
        obtain ⟨closed, began, told⟩ := bind_eq_ok.mp closes
        cases told
        refine .inr ?_
        change closed.connection.state = _
        rw [(Session.beginClose_law began).2.2]
      · exact of_quiet (quiet zero)
  | handleWrite write => exact of_quiet (.handleWrite returned)
  | establish => exact absurd rfl established
  | remove =>
      rw [(Session.onFiled_remove returned).2.2]
      exact closing
  | userCall call => exact of_quiet (.userCall returned)

namespace System

variable {threads : Nat} {config : Config} {sys next : System threads} {c : ConnId}
  {loop : LoopId threads} {action : Action threads} {calls : List Call}

/-- The bytes waiting in `outputBuffer_` of a connection that is not closed. -/
def unsent (sys : System threads) (c : ConnId) : Nat :=
  match sys.conns c with
  | some member =>
      if member.connection.state = .kDisconnected then 0
      else member.connection.outputBuffer.readableBytes
  | none => 0

/-- The kernel is to report when the descriptor can be written. -/
def AwaitsWriting (sys : System threads) (c : ConnId) : Prop :=
  ∃ member ∈ sys.conns c,
    ∃ event ∈ (sys.loops member.loop).epoller.interest member.connection.filed.fd,
      event.events &&& EPOLLOUT ≠ 0

instance (sys : System threads) (c : ConnId) : Decidable (sys.AwaitsWriting c) :=
  inferInstanceAs (Decidable (∃ member ∈ sys.conns c, ∃ event ∈ _, _))

/-- `epoll_wait` reports that the descriptor can be written. -/
def ReportsWriting (sys : System threads) (c : ConnId) (action : Action threads) : Prop :=
  ∃ member ∈ sys.conns c, ∃ reports revents, action = .poll member.loop reports ∧
    (member.connection.filed.fd, revents) ∈ reports ∧ revents &&& EPOLLOUT ≠ 0

theorem exists_of_unsent (waiting : 0 < sys.unsent c) :
    ∃ member, sys.conns c = some member ∧ member.connection.state ≠ .kDisconnected ∧
      sys.unsent c = member.connection.outputBuffer.readableBytes := by
  unfold unsent at waiting ⊢
  split at waiting
  next member found =>
    by_cases closed : member.connection.state = .kDisconnected
    · rw [if_pos closed] at waiting
      cases waiting
    · exact ⟨member, found, closed, if_neg closed⟩
  next => cases waiting

theorem unsent_eq {member : Member threads} (found : sys.conns c = some member)
    (live : member.connection.state ≠ .kDisconnected) :
    sys.unsent c = member.connection.outputBuffer.readableBytes := by
  simp only [unsent, found, if_neg live]

theorem Tracked.awaits (tracked : Tracked c sys calls) (anchored : Anchored config sys)
    (waiting : 0 < sys.unsent c) : sys.AwaitsWriting c := by
  obtain ⟨member, found, live, bytes⟩ := exists_of_unsent waiting
  rw [bytes] at waiting
  rcases tracked.monitored anchored found live with
    ⟨_, empty⟩ | ⟨events, interest, _, writes⟩
  · exact absurd waiting (Nat.not_lt.mpr (Nat.le_of_eq empty))
  · exact ⟨member, found, _, interest, writes.mpr waiting⟩

/-- What is open after a step was open before it. -/
theorem Anchored.was_live (anchored : Anchored config sys) (move : Move config sys action next)
    (known : c < sys.nextConnId) {after : Member threads} (found : next.conns c = some after)
    (live : after.connection.state ≠ .kDisconnected) :
    ∃ member, sys.conns c = some member ∧ member.connection.state ≠ .kDisconnected := by
  have present : ∃ member, sys.conns c = some member := by
    cases move.changed found with
    | same before => exact ⟨_, before⟩
    | accepted accepts new => exact absurd new (Nat.ne_of_lt known)
    | turned performs head before => exact ⟨_, before⟩
    | called calls before => exact ⟨_, before⟩
  obtain ⟨member, before⟩ := present
  refine ⟨member, before, fun closed => live ?_⟩
  have shut : Shut member.loop c sys := by
    refine ⟨known, fun other foundOther => ?_⟩
    cases before.symm.trans foundOther
    exact ⟨closed, rfl⟩
  exact ((shut.move anchored move).closed after found).1

/-- Without a send nothing is added to what waits. -/
theorem Tracked.unsent_le (tracked : Tracked c sys calls) (anchored : Anchored config sys)
    (known : c < sys.nextConnId) (silent : sys.sent c action = none)
    (stepped : System.step config sys action = some next) : next.unsent c ≤ sys.unsent c := by
  by_cases waiting : 0 < next.unsent c
  · obtain ⟨after, foundAfter, live, bytes⟩ := exists_of_unsent waiting
    obtain ⟨member, found, was⟩ :=
      anchored.was_live (anchored.moves stepped) known foundAfter live
    obtain ⟨session, returned, leaves⟩ := anchored.runs found stepped
    rw [System.sent, found] at silent
    have wellFormed : member.connection.outputBuffer.WellFormed :=
      (tracked.linked found).wellFormed
    have flows := Routine.flows (s := sys.session c member) wellFormed returned silent
    obtain ⟨made, _, _, stream⟩ := flows.calls
    rw [bytes, unsent_eq found was, leaves after foundAfter, ← flows.wellFormed.length_readable]
    have lengths := congrArg List.length stream
    rw [List.length_append] at lengths
    rw [← wellFormed.length_readable]
    exact Nat.le_trans (Nat.le_add_left _ _) (Nat.le_of_eq lengths)
  · exact Nat.le_trans (Nat.not_lt.mp waiting) (Nat.zero_le _)

/-! ## From a report to `handleWrite` -/

theorem Anchored.polled (anchored : Anchored config sys) (reports : sys.ReportsWriting c action)
    (awaits : sys.AwaitsWriting c) (stepped : System.step config sys action = some next) :
    ∃ loop active revents, (next.loops loop).phase = .handling active ∧
      (c, revents) ∈ active ∧
      revents &&& EPOLLOUT ≠ 0 := by
  obtain ⟨member, found, entries, revents, rfl, listed, writes⟩ := reports
  obtain ⟨other, foundOther, event, monitored, _⟩ := awaits
  cases found.symm.trans foundOther
  have ptr : event.ptr = c := by
    rw [(anchored.wired.registered found).monitored, Option.mem_def,
      Option.ite_none_right_eq_some, Option.some.injEq] at monitored
    rw [← monitored.2]
  simp only [System.step, Option.ite_none_right_eq_some, Option.some.injEq] at stepped
  obtain ⟨_, rfl⟩ := stepped
  refine ⟨member.loop, _, revents, congrArg LoopState.phase (modifyLoop_here ..), ?_, writes⟩
  apply List.mem_filterMap.mpr
  refine ⟨_, listed, ?_⟩
  rw [Option.mem_def] at monitored
  rw [monitored, Option.map_some, ptr]

/-- An active `Filed` waits until it is the one that is handled. -/
theorem Move.active (move : Move config sys action next) {active : List (ConnId × Mask)}
    {entry : ConnId × Mask} (phase : (sys.loops loop).phase = .handling active)
    (inside : entry ∈ active) :
    (∃ later, (next.loops loop).phase = .handling later ∧ entry ∈ later) ∨
      action = .handleEvent loop ∧
        ∃ rest, (sys.loops loop).phase = .handling (entry :: rest) := by
  have unchanged (same : (next.loops loop).phase = (sys.loops loop).phase) :
      ∃ later, (next.loops loop).phase = .handling later ∧ entry ∈ later :=
    ⟨active, same.trans phase, inside⟩
  cases move with
  | @control action acting change thread plain control =>
      left
      by_cases here : loop = acting
      · subst here
        exact (control.not_handling phase inside).elim
      · exact unchanged (congrArg LoopState.phase (modifyLoop_elsewhere here))
  | @handleEvent acting d revents others member handling agenda found =>
      by_cases here : loop = acting
      · subst here
        rw [phase] at handling
        cases handling
        rcases List.mem_cons.mp inside with rfl | later
        · exact .inr ⟨rfl, others, phase⟩
        · exact .inl ⟨others, congrArg LoopState.phase (modifyLoop_here ..), later⟩
      · exact .inl (unchanged (congrArg LoopState.phase (modifyLoop_elsewhere here)))
  | accept =>
      left
      apply unchanged
      unfold System.newConnection
      dsimp only
      split
      · exact setAgenda_phase ..
      · exact queueinLoop_phase ..
  | turn => exact .inl (unchanged (by rw [System.turned, setAgenda_phase, commit_phase]))
  | userCode => exact .inl (unchanged (setAgenda_phase ..))
  | closeCallback =>
      left
      apply unchanged
      unfold System.removeConnection
      split
      · exact setAgenda_phase ..
      · rw [queueinLoop_phase, setAgenda_phase]
  | removeConnectionInLoop =>
      left
      apply unchanged
      rw [System.removeConnectionInLoop, queueinLoop_phase]
      exact setAgenda_phase ..
  | userCall => exact .inl (unchanged (commit_phase ..))
  | setUser | destroy => exact .inl (unchanged rfl)
  | queueUser => exact .inl (unchanged (queueinLoop_phase ..))

/-! ## Runs without end -/

/-- A whole run of the server: from its start, with answers the kernel can give, and with
loops that go round again and again. -/
structure Whole (config : Config) (states : Nat → System threads)
    (actions : Nat → Action threads) : Prop where
  start : states 0 = make
  endless : (interleaving config).Endless states actions
  answered : ∀ i, (states i).Answered (actions i)
  goesRound : ∀ loop i, ∃ j, i ≤ j ∧ actions j = .swap loop

/-- The socket of a connection goes on to take bytes. -/
structure Takes (c : ConnId) (states : Nat → System threads) (actions : Nat → Action threads) :
    Prop where
  /-- It is not waited for in vain. -/
  reported : ∀ i, (∀ j, i ≤ j → (states j).AwaitsWriting c) →
    ∃ j, i ≤ j ∧ (states j).ReportsWriting c (actions j)
  /-- When it has been reported it takes something. -/
  written : ∀ i loop readv write rest, actions i = .perform loop readv write →
    ((states i).loops loop).agenda = .callback .write c :: rest → 0 < write.returned

/-- The calls made for a connection before a step. -/
def madeBefore (states : Nat → System threads) (actions : Nat → Action threads) (c : ConnId) :
    Nat → List Call
  | 0 => []
  | i + 1 => madeBefore states actions c i ++ (states i).made c (actions i)

section

variable {states : Nat → System threads} {actions : Nat → Action threads} {i : Nat}

theorem Whole.lively (whole : Whole config states actions) : Lively config states actions :=
  ⟨⟨[], congrArg some whole.start.symm⟩, whole.endless, whole.goesRound⟩

theorem Whole.anchored (whole : Whole config states actions) (i : Nat) :
    Anchored config (states i) :=
  whole.lively.anchored i

theorem Whole.tracked (whole : Whole config states actions) (c : ConnId) (i : Nat) :
    Tracked c (states i) (madeBefore states actions c i) := by
  induction i with
  | zero =>
      rw [whole.start]
      exact make_tracked c
  | succ i inductionHypothesis =>
      exact inductionHypothesis.step (whole.anchored i) (whole.answered i) (whole.endless i)

/-- What is active is handled. -/
theorem Lively.handles (lively : Lively config states actions) {active : List (ConnId × Mask)}
    {entry : ConnId × Mask} (phase : ((states i).loops loop).phase = .handling active)
    (inside : entry ∈ active) :
    ∃ m, i ≤ m ∧ actions m = .handleEvent loop ∧
      ∃ rest, ((states m).loops loop).phase = .handling (entry :: rest) := by
  by_contra never
  obtain ⟨k, later, swap⟩ := lively.goesRound loop i
  have waits {m : Nat} (begun : i ≤ m) (within : m ≤ k) :
      ∃ active, ((states m).loops loop).phase = .handling active ∧ entry ∈ active := by
    induction m, begun using Nat.le_induction with
    | base => exact ⟨active, phase, inside⟩
    | succ m begun inductionHypothesis =>
        obtain ⟨left, handling, waiting⟩ := inductionHypothesis (Nat.le_of_succ_le within)
        rcases (lively.move m).active handling waiting with later | handled
        · exact later
        · exact absurd ⟨m, begun, handled⟩ never
  obtain ⟨left, handling, waiting⟩ := waits later (Nat.le_refl k)
  rw [(lively.swapped swap).phase] at handling
  cases handling
  exact absurd waiting List.not_mem_nil

/-- The handler of a report for writing leads to `handleWrite`. -/
theorem Lively.calls_back (lively : Lively config states actions) {rest : List (ConnId × Mask)}
    {revents : Mask} (handles : actions i = .handleEvent loop)
    (phase : ((states i).loops loop).phase = .handling ((c, revents) :: rest))
    (writes : revents &&& EPOLLOUT ≠ 0) : Planned (.callback .write c) (states (i + 1)) := by
  have stepped := lively.endless i
  rw [handles] at stepped
  change System.step config (states i) (.handleEvent loop) = _ at stepped
  simp only [System.step] at stepped
  split at stepped
  next d reported active handling agenda =>
    rw [phase] at handling
    cases handling
    obtain ⟨member, found, next⟩ := Option.map_eq_some_iff.mp stepped
    refine ⟨loop, ?_⟩
    rw [← next, modifyLoop_here]
    apply List.mem_append_left
    exact List.mem_map_of_mem (write_mem_handleEvent _ writes)
  next => cases stepped

theorem Takes.goes_down (takes : Takes c states actions) (whole : Whole config states actions)
    (planned : Planned (.callback .write c) (states i))
    (waits : ∀ j, i ≤ j → 0 < (states j).unsent c) :
    ∃ j, i ≤ j ∧ (states (j + 1)).unsent c < (states j).unsent c := by
  obtain ⟨m, loop, readv, write, rest, later, action, head, performed⟩ :=
    whole.lively.performed planned
  refine ⟨m, later, ?_⟩
  obtain ⟨member, found, writing⟩ := Option.bind_eq_some_iff.mp performed
  obtain ⟨session, returned, next⟩ := Option.map_eq_some_iff.mp writing
  obtain ⟨other, foundOther, live, bytes⟩ := exists_of_unsent (waits m later)
  cases found.symm.trans foundOther
  have linked := (whole.tracked c m).linked found
  have positive := takes.written m loop readv write rest action head
  have remains : 0 < member.connection.outputBuffer.readableBytes := bytes ▸ waits m later
  have writes : ((states m).session c member).isWriting = true := (linked.interest live).mpr remains
  have flushed := Session.handleWrite_flushed (s := (states m).session c member)
    linked.wellFormed writes (toOption_eq_some.mp returned)
  have foundAfter : (states (m + 1)).conns c =
      some { member with connection := session.connection } := by
    rw [← next]
    exact commit_conns ..
  have state : session.connection.state = member.connection.state := by rw [flushed.frame]; rfl
  rw [unsent_eq foundAfter (state.symm ▸ live), bytes]
  change session.unread < _
  rw [flushed.unread]
  refine Nat.sub_lt remains ?_
  exact Int.pos_iff_toNat_pos.mp positive

/-- If nothing is passed to a connection from some time on, all that waits is sent, or the
connection is closed. -/
theorem output_drains (whole : Whole config states actions) (takes : Takes c states actions)
    (known : c < (states i).nextConnId)
    (nothing : ∀ j, i ≤ j → (states j).sent c (actions j) = none) :
    ∃ j, i ≤ j ∧ (states j).unsent c = 0 := by
  have stays {j : Nat} (later : i ≤ j) : c < (states j).nextConnId := by
    induction j, later using Nat.le_induction with
    | base => exact known
    | succ j _ inductionHypothesis =>
        exact Nat.lt_of_lt_of_le inductionHypothesis (whole.lively.move j).later
  have never_grows (j : Nat) (later : i ≤ j) :
      (states (j + 1)).unsent c ≤ (states j).unsent c :=
    (whole.tracked c j).unsent_le (whole.anchored j) (stays later) (nothing j later)
      (whole.endless j)
  apply falls_to_zero never_grows
  intro j later waiting
  by_contra never
  have waits (k : Nat) (after : j ≤ k) : 0 < (states k).unsent c := by
    induction k, after using Nat.le_induction with
    | base => exact waiting
    | succ k after inductionHypothesis =>
        exact Nat.lt_of_lt_of_le inductionHypothesis
          (Nat.not_lt.mp fun less => never ⟨k, after, less⟩)
  have awaits (k : Nat) (after : j ≤ k) : (states k).AwaitsWriting c :=
    (whole.tracked c k).awaits (whole.anchored k) (waits k after)
  -- so it is reported, handled and called back
  obtain ⟨k, first, reports⟩ := takes.reported j awaits
  obtain ⟨loop, active, revents, phase, inside, writes⟩ :=
    (whole.anchored k).polled reports (awaits k first) (whole.endless k)
  obtain ⟨m, second, handles, rest, handling⟩ := whole.lively.handles phase inside
  have planned := whole.lively.calls_back handles handling writes
  have after : j ≤ m + 1 := Nat.le_succ_of_le (Nat.le_trans (Nat.le_succ_of_le first) second)
  obtain ⟨n, last, less⟩ := takes.goes_down whole planned
    fun n last => waits n (Nat.le_trans after last)
  exact never ⟨n, Nat.le_trans after last, less⟩

/-- Shut down by the user, or closed, if it still exists. -/
structure Ending (c : ConnId) (sys : System threads) : Prop where
  known : c < sys.nextConnId
  closing : ∀ member, sys.conns c = some member →
    member.connection.state = .kDisconnecting ∨ member.connection.state = .kDisconnected

theorem Ending.step (ending : Ending c sys) (anchored : Anchored config sys)
    (stepped : System.step config sys action = some next) : Ending c next := by
  have move := anchored.moves stepped
  refine ⟨Nat.lt_of_lt_of_le ending.known move.later, fun after foundAfter => ?_⟩
  by_cases live : after.connection.state = .kDisconnected
  · exact .inr live
  · obtain ⟨member, found, _⟩ := anchored.was_live move ending.known foundAfter live
    obtain ⟨session, returned, leaves⟩ := anchored.runs found stepped
    have closing := ending.closing member found
    rw [leaves after foundAfter]
    refine Routine.closing returned (fun establishes => ?_) closing
    have connecting := anchored.establishes found establishes
    rcases closing with state | state <;>
      · rw [connecting] at state
        cases state

theorem Ending.silent (ending : Ending c sys) : sys.sent c action = none := by
  apply Option.eq_none_iff_forall_ne_some.mpr
  rintro ⟨data, answer⟩ sends
  obtain ⟨member, found, sent⟩ := Option.bind_eq_some_iff.mp sends
  have connected := (Routine.sent_eq_some sent).2
  rcases ending.closing member found with state | state <;>
    · rw [connected] at state
      cases state

theorem exists_of_madeBefore {call : Call} (made : call ∈ madeBefore states actions c i) :
    ∃ k, k < i ∧ call ∈ (states k).made c (actions k) := by
  induction i with
  | zero => cases made
  | succ i inductionHypothesis =>
      rcases List.mem_append.mp made with before | now
      · obtain ⟨k, earlier, made⟩ := inductionHypothesis before
        exact ⟨k, Nat.lt_succ_of_lt earlier, made⟩
      · exact ⟨i, Nat.lt_succ_self i, now⟩

/-- A connection the user has shut down on its own loop has, some time later, sent all that
waited and had the write side of its socket shut down, unless it is closed before. -/
theorem shutdown_completes (whole : Whole config states actions) (takes : Takes c states actions)
    {member : Member threads} (found : (states i).conns c = some member)
    (closing : member.connection.state = .kDisconnecting) :
    ∃ j, i ≤ j ∧ ∀ after, (states j).conns c = some after →
      after.connection.state = .kDisconnected ∨
        after.connection.outputBuffer.readableBytes = 0 ∧
          ∃ k, k < j ∧ .shutdownWrite ∈ (states k).made c (actions k) := by
  have ending {j : Nat} (later : i ≤ j) : Ending c (states j) := by
    induction j, later using Nat.le_induction with
    | base =>
        refine ⟨((whole.anchored i).named found).2, fun other foundOther => ?_⟩
        cases found.symm.trans foundOther
        exact .inl closing
    | succ j _ inductionHypothesis =>
        exact inductionHypothesis.step (whole.anchored j) (whole.endless j)
  obtain ⟨j, later, empty⟩ := output_drains whole takes (ending (Nat.le_refl i)).known
    fun j later => (ending later).silent
  refine ⟨j, later, fun after foundAfter => ?_⟩
  rcases (ending later).closing after foundAfter with disconnecting | closed
  · have live : after.connection.state ≠ .kDisconnected := by simp [disconnecting]
    rw [unsent_eq foundAfter live] at empty
    have finished := ((whole.tracked c j).linked foundAfter).finished disconnecting empty
    rw [Session.prepend, System.session, List.append_nil] at finished
    exact .inr ⟨empty, exists_of_madeBefore finished⟩
  · exact .inl closed

end

/-- The user sends two bytes to a new connection, of which the socket takes none, and
shuts the connection down. -/
def shutDown : List (Action 0) :=
  [.poll none [], .accept 7 false false, .perform none (.failed 0) ⟨2, 0⟩,
    .userCall none 1 (.send Outgoing.ab ⟨0, 0⟩), .userCall none 1 .shutdown]

/-- The socket takes the bytes when it is reported. -/
def shutDownRest : List (Action 0) :=
  [.perform none (.failed 0) ⟨2, 0⟩, .swap none, .finish none, .poll none [(7, EPOLLOUT)],
    .handleEvent none, .perform none (.failed 0) ⟨2, 0⟩, .swap none, .finish none]

/-- An idle round leaves the connections and their registration alone. -/
theorem idle_step {sys next : System 0} {action : Action 0} (idle : action ∈ idleRound)
    (stepped : System.step config sys action = some next) :
    next.conns = sys.conns ∧ (next.loops none).epoller = (sys.loops none).epoller := by
  simp only [idleRound, List.mem_cons, List.not_mem_nil, or_false] at idle
  rcases idle with rfl | rfl | rfl <;>
    · simp only [System.step, Option.ite_none_right_eq_some, Option.some.injEq] at stepped
      obtain ⟨_, rfl⟩ := stepped
      exact ⟨rfl, by rw [modifyLoop_here]⟩

theorem awaitsWriting_congr {sys next : System 0} (conns : next.conns = sys.conns)
    (epoller : (next.loops none).epoller = (sys.loops none).epoller)
    (awaits : next.AwaitsWriting c) : sys.AwaitsWriting c := by
  obtain ⟨member, found, event, monitored, writes⟩ := awaits
  have only : member.loop = none := by
    cases member.loop with
    | none => rfl
    | some inside => exact inside.elim0
  rw [conns] at found
  rw [only, epoller] at monitored
  exact ⟨member, found, event, only ▸ monitored, writes⟩

/-- Every `::write` takes two bytes, every `readv` fails and the calls of the user are
answered as they may be. -/
def Action.Takes : Action 0 → Prop
  | .perform _ readv write => readv = .failed 0 ∧ write = ⟨2, 0⟩
  | .userCall _ _ call => call.Valid
  | .poll _ _ | .handleEvent _ | .accept _ _ _ | .swap _ | .runNext _ | .finish _ | .keep _ _
  | .release _ | .queueUser _ _ | .destroy _ => True

theorem takes_shutDown : ∀ action ∈ shutDown ++ shutDownRest ++ idleRound, action.Takes := by
  simp [shutDown, shutDownRest, idleRound, Action.Takes, UserCall.Valid, WriteResult.Valid]

/-- The run of `shutDown`, of what follows it, and of idle rounds without end. -/
theorem exists_whole_shutDown :
    ∃ (states : Nat → System 0) (actions : Nat → Action 0) (member : Member 0),
      Whole ⟨[], ⟨fun _ => 0, 0⟩⟩ states actions ∧ System.Takes 1 states actions ∧
      (states 5).conns 1 = some member ∧ member.connection.state = .kDisconnecting := by
  let machine : Machine (System 0) (Action 0) := interleaving ⟨[], ⟨fun _ => 0, 0⟩⟩
  have checked : (machine.exec make shutDown).any (fun sys =>
      (sys.conns 1).any (·.connection.state = .kDisconnecting) &&
        (machine.exec sys shutDownRest).any fun final =>
          decide ((final.loops none).phase = .polling ∧ (final.loops none).agenda = [] ∧
            (final.loops none).queue = .empty ∧ ¬ final.AwaitsWriting 1)) = true := by
    decide +kernel
  obtain ⟨middle, run, there⟩ := (Option.any_eq_true _ _).mp checked
  obtain ⟨shut, rest⟩ := (Bool.and_eq_true _ _).mp there
  obtain ⟨member, found, state⟩ := (Option.any_eq_true _ _).mp shut
  obtain ⟨final, ends, quiet⟩ := (Option.any_eq_true _ _).mp rest
  obtain ⟨phase, agenda, queue, satisfied⟩ := of_decide_eq_true quiet
  let idle (i : Nat) : Action 0 := idleRound.get ⟨i % 3, Nat.mod_lt i (by decide)⟩
  have idles : machine.Endless (machine.follow final idle) idle :=
    Machine.endless_cycle (exec_idleRound _ phase agenda queue) (by decide)
      fun i => List.getElem?_eq_getElem (Nat.mod_lt i (by decide))
  have still (i : Nat) : ¬ (machine.follow final idle i).AwaitsWriting 1 := by
    induction i with
    | zero => exact satisfied
    | succ i inductionHypothesis =>
        obtain ⟨conns, epoller⟩ := idle_step (List.get_mem _ _) (idles i)
        exact fun awaits => inductionHypothesis (awaitsWriting_congr conns epoller awaits)
  obtain ⟨_, _, endlessRest, firstRest, reachedRest, laterRest, sourceRest⟩ :=
    idles.after rfl ends
  obtain ⟨states, actions, endless, first, reached, later, source⟩ :=
    endlessRest.after firstRest run
  have listed (i : Nat) : (actions i).Takes := by
    apply takes_shutDown
    rw [List.mem_append, List.mem_append]
    rcases source i with before | ⟨j, same⟩
    · exact .inl (.inl before)
    · rw [same]
      rcases sourceRest j with rest | ⟨k, idles⟩
      · exact .inl (.inr rest)
      · exact .inr (idles ▸ List.get_mem _ _)
  have whole : Whole ⟨[], ⟨fun _ => 0, 0⟩⟩ states actions := by
    refine ⟨first, endless, fun i => ?_, fun loop i => ?_⟩
    · have takes := listed i
      cases action : actions i with
      | perform loop readv write =>
          rw [action] at takes
          intro c rest head member found
          rw [takes.1]
          trivial
      | userCall loop c call =>
          rw [action] at takes
          exact takes
      | poll | handleEvent | accept | swap | runNext | finish | keep | release | queueUser
        | destroy => trivial
    · have only : loop = none := by
        cases loop with
        | none => rfl
        | some inside => exact inside.elim0
      refine ⟨shutDown.length + (shutDownRest.length + (3 * i + 1)), by omega, ?_⟩
      have place : (3 * i + 1) % 3 = 1 := by omega
      rw [later, laterRest]
      simp only [idle, place, only]
      rfl
  have takes : System.Takes 1 states actions := by
    refine ⟨fun i awaits => ?_, fun i loop readv write rest action head => ?_⟩
    · have awaiting := awaits (shutDown.length + (shutDownRest.length + i)) (by omega)
      rw [reached, reachedRest] at awaiting
      exact absurd awaiting (still i)
    · have takes := listed i
      rw [action] at takes
      rw [takes.2]
      decide
  have five : states 5 = middle := (reached 0).trans firstRest
  exact ⟨states, actions, member, whole, takes, five ▸ found, of_decide_eq_true state⟩

theorem shutdown_completes_sent :
    ∃ (states : Nat → System 0) (actions : Nat → Action 0),
      Whole ⟨[], ⟨fun _ => 0, 0⟩⟩ states actions ∧
      ∃ j, 5 ≤ j ∧ ∀ after, (states j).conns 1 = some after →
        after.connection.state = .kDisconnected ∨
          after.connection.outputBuffer.readableBytes = 0 ∧
            ∃ k, k < j ∧ .shutdownWrite ∈ (states k).made 1 (actions k) := by
  obtain ⟨states, actions, member, whole, takes, found, closing⟩ := exists_whole_shutDown
  exact ⟨states, actions, whole, shutdown_completes whole takes found closing⟩

end System

end Lucky.Server
