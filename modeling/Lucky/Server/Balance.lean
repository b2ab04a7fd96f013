import Lucky.Server.Moves
import Lucky.Systems.RoundRobin

/-!
# Where connections go

`getNextLoop` deals the accepted connections to the loops of the pool in turn.
A connection never changes its loop, so that connection `c` is for its whole life
on the loop of turn `c - 1`.
-/

namespace Lucky.Server.System

open Systems

variable {threads : Nat} {config : Config} {sys next : System threads} {c : ConnId}

/-- The loop of a turn: the main loop when the pool is empty. -/
def turnLoop (threads turn : Nat) : LoopId threads :=
  if pooled : 0 < threads then some ⟨turn % threads, Nat.mod_lt turn pooled⟩ else none

theorem turnLoop_eq_some {loop : Fin threads} {turn : Nat} :
    turnLoop threads turn = some loop ↔ turn % threads = loop.val := by
  rw [turnLoop, dif_pos (Nat.zero_lt_of_lt loop.isLt), Option.some.injEq, Fin.ext_iff]

def Action.accepts : Action threads → Bool
  | .accept _ _ _ => true
  | .poll _ _ | .handleEvent _ | .swap _ | .runNext _ | .finish _ | .perform _ _ _
  | .userCall _ _ _ | .keep _ _ | .release _ | .queueUser _ _ | .destroy _ => false

/-- The loops to which the connections accepted along a run are given, in order. -/
def dealt (config : Config) (sys : System threads) : List (Action threads) → List (LoopId threads)
  | [] => []
  | action :: rest =>
      match step config sys action with
      | none => []
      | some next =>
          if action.accepts then sys.getNextLoop.1 :: dealt config next rest
          else dealt config next rest

theorem dealt_of_step {action : Action threads} {rest : List (Action threads)}
    (stepped : step config sys action = some next) :
    dealt config sys (action :: rest) =
      if action.accepts then sys.getNextLoop.1 :: dealt config next rest
      else dealt config next rest := by
  rw [dealt, stepped]

/-- The cursor of the pool and the loops of all connections follow the count of the accepted
ones. -/
structure InTurn (sys : System threads) : Prop where
  first : 1 ≤ sys.nextConnId
  cursor : 0 < threads → sys.nextLoop = (sys.nextConnId - 1) % threads
  loops : ∀ {c member}, sys.conns c = some member →
    1 ≤ c ∧ member.loop = turnLoop threads (c - 1)

theorem make_inTurn : InTurn (make : System threads) where
  first := Nat.le_refl 1
  cursor pooled := (Nat.zero_mod threads).symm
  loops found := by cases found

theorem InTurn.getNextLoop (inTurn : InTurn sys) :
    sys.getNextLoop.1 = turnLoop threads (sys.nextConnId - 1) ∧
      (0 < threads → sys.getNextLoop.2 = sys.nextConnId % threads) := by
  rw [System.getNextLoop, turnLoop]
  by_cases pooled : 0 < threads
  · have cursor := inTurn.cursor pooled
    have inside : sys.nextLoop < threads := cursor ▸ Nat.mod_lt _ pooled
    rw [dif_pos inside, dif_pos pooled]
    refine ⟨?_, fun _ => ?_⟩
    · simp only [cursor]
    · have advanced := RoundRobin.advance_mod pooled (sys.nextConnId - 1)
      rw [Nat.sub_add_cancel inTurn.first, ← cursor] at advanced
      exact advanced
  · rw [dif_neg pooled, dif_neg (fun inside => pooled (Nat.zero_lt_of_lt inside))]
    exact ⟨rfl, fun positive => absurd positive pooled⟩

theorem newConnection_nextLoop {sockfd : Nat}
    {writeCompleteCallback highWaterMarkCallback : Bool} :
    (sys.newConnection config sockfd writeCompleteCallback highWaterMarkCallback).nextLoop =
      sys.getNextLoop.2 := by
  unfold System.newConnection
  dsimp only
  split <;> rfl

theorem accepted_of_step {action : Action threads} (accepts : action.accepts = true)
    (stepped : step config sys action = some next) :
    ∃ sockfd writeCompleteCallback highWaterMarkCallback,
      action = .accept sockfd writeCompleteCallback highWaterMarkCallback ∧
        next = sys.newConnection config sockfd writeCompleteCallback highWaterMarkCallback := by
  cases action with
  | accept sockfd writeCompleteCallback highWaterMarkCallback =>
      refine ⟨sockfd, writeCompleteCallback, highWaterMarkCallback, rfl, ?_⟩
      simp only [System.step] at stepped
      split at stepped
      next =>
        rw [Option.ite_none_right_eq_some] at stepped
        exact (Option.some.inj stepped.2).symm
      next => cases stepped
  | poll | handleEvent | swap | runNext | finish | perform | userCall | keep | release | queueUser
    | destroy => cases accepts

theorem Move.undealt {action : Action threads} (move : Move config sys action next)
    (other : action.accepts = false) :
    next.nextConnId = sys.nextConnId ∧ next.nextLoop = sys.nextLoop := by
  cases move with
  | accept => cases other
  | closeCallback =>
      have fields := removeConnection_fields sys
      exact ⟨(fields _ _ _).2.2.1, (fields _ _ _).2.2.2.2⟩
  | control | setUser | handleEvent | turn | userCode | removeConnectionInLoop | userCall
    | queueUser | destroy => exact ⟨rfl, rfl⟩

/-- A connection after a step is the one accepted by it, or has been on its loop before. -/
theorem Changed.loop {action : Action threads} {member : Member threads}
    (changed : Changed config sys action c member) :
    (∃ before, sys.conns c = some before ∧ before.loop = member.loop) ∨
      action.accepts = true ∧ c = sys.nextConnId ∧ member.loop = sys.getNextLoop.1 := by
  cases changed with
  | same found => exact .inl ⟨_, found, rfl⟩
  | accepted accepts new =>
      subst accepts
      exact .inr ⟨rfl, new, rfl⟩
  | turned performs head found turn returned => exact .inl ⟨_, found, rfl⟩
  | called calls found returned => exact .inl ⟨_, found, rfl⟩

theorem InTurn.step (anchored : Anchored config sys) (inTurn : InTurn sys)
    {action : Action threads} (stepped : System.step config sys action = some next) :
    InTurn next := by
  have move := anchored.moves stepped
  have loops {d : ConnId} {member : Member threads} (found : next.conns d = some member) :
      1 ≤ d ∧ member.loop = turnLoop threads (d - 1) := by
    rcases (move.changed found).loop with ⟨before, old, same⟩ | ⟨_, rfl, chosen⟩
    · exact same ▸ inTurn.loops old
    · exact ⟨inTurn.first, chosen.trans inTurn.getNextLoop.1⟩
  cases accepts : action.accepts with
  | false =>
      obtain ⟨count, cursor⟩ := move.undealt accepts
      refine ⟨count ▸ inTurn.first, fun pooled => ?_, loops⟩
      rw [cursor, count]
      exact inTurn.cursor pooled
  | true =>
      obtain ⟨_, _, _, _, rfl⟩ := accepted_of_step accepts stepped
      refine ⟨?_, fun pooled => ?_, loops⟩
      · rw [newConnection_nextConnId]
        exact Nat.le_add_left 1 _
      · rw [newConnection_nextConnId, newConnection_nextLoop, Nat.add_sub_cancel]
        exact inTurn.getNextLoop.2 pooled

/-- The connections of a run are dealt turn by turn. -/
theorem InTurn.dealt (anchored : Anchored config sys) (inTurn : InTurn sys)
    {actions : List (Action threads)} {final : System threads}
    (run : (interleaving config).exec sys actions = some final) :
    (List.range (sys.nextConnId - 1)).map (turnLoop threads) ++ dealt config sys actions =
      (List.range (final.nextConnId - 1)).map (turnLoop threads) := by
  induction actions generalizing sys with
  | nil =>
      cases run
      exact List.append_nil _
  | cons action rest inductionHypothesis =>
      obtain ⟨next, stepped, restRun⟩ := ((interleaving config).exec_cons_eq_some).mp run
      have later := inductionHypothesis (anchored.step stepped) (inTurn.step anchored stepped)
        restRun
      rw [dealt_of_step stepped]
      cases accepts : action.accepts with
      | false =>
          rw [((anchored.moves stepped).undealt accepts).1] at later
          exact later
      | true =>
          obtain ⟨_, _, _, _, rfl⟩ := accepted_of_step accepts stepped
          obtain ⟨turn, count⟩ := Nat.exists_eq_add_of_le' inTurn.first
          rw [newConnection_nextConnId, Nat.add_sub_cancel] at later
          rw [← later, if_pos rfl, inTurn.getNextLoop.1, count, Nat.add_sub_cancel,
            List.range_succ, List.map_append, List.append_assoc]
          rfl

/-- In every run the accepted connections are dealt in turn: any two loops of the pool get
numbers of them that differ by at most one, the main loop gets none when there is a pool,
and every connection stays for life on the loop it was dealt to. -/
theorem evenly_dealt (config : Config) {actions : List (Action threads)} {final : System threads}
    (run : (interleaving config).exec make actions = some final) :
    (∀ first second : Fin threads, (dealt config make actions).count (some first) ≤
      (dealt config make actions).count (some second) + 1) ∧
    (0 < threads → none ∉ dealt config make actions) ∧
    ∀ c member, final.conns c = some member →
      (dealt config make actions)[c - 1]? = some member.loop := by
  have anchored : Anchored config (make : System threads) := make_anchored config
  have all := make_inTurn.dealt anchored run
  have inTurn : InTurn final := by
    have both := (interleaving config).exec_invariant
      (fun sys action next (kept : Anchored config sys ∧ InTurn sys) stepped =>
        ⟨kept.1.step stepped, kept.2.step kept.1 stepped⟩) ⟨anchored, make_inTurn⟩ run
    exact both.2
  change dealt config make actions = _ at all
  rw [all]
  refine ⟨?_, ?_, ?_⟩
  · intro first second
    have its (loop : Fin threads) (turn : Nat) :
        turnLoop threads turn = some loop ↔ turn % threads = loop.val := turnLoop_eq_some
    have share (loop : Fin threads) :=
      RoundRobin.count_dealt (turnLoop threads) (its loop) (final.nextConnId - 1)
    rw [share first, share second]
    exact RoundRobin.share_le_succ first.isLt second.isLt _
  · intro pooled main
    obtain ⟨turn, _, missing⟩ := List.mem_map.mp main
    rw [turnLoop, dif_pos pooled] at missing
    cases missing
  · intro c member found
    obtain ⟨first, loop⟩ := inTurn.loops found
    have known := (reachable_anchored ⟨actions, run⟩).named found
    rw [List.getElem?_map, List.getElem?_range, loop]
    · rfl
    · exact Nat.sub_lt_sub_right first known.2

theorem evenly_dealt_pool :
    ∃ final : System 2, (interleaving ⟨[], ⟨fun _ => 0, 0⟩⟩).exec make
      [.poll none [], .accept 7 false false, .accept 8 false false, .accept 9 false false] =
        some final ∧
      ∀ c member, final.conns c = some member →
        [some 0, some 1, some (0 : Fin 2)][c - 1]? = some member.loop := by
  obtain ⟨final, run⟩ : ∃ final : System 2,
      (interleaving ⟨[], ⟨fun _ => 0, 0⟩⟩).exec make
      [.poll none [], .accept 7 false false, .accept 8 false false, .accept 9 false false] =
        some final := ⟨_, rfl⟩
  exact ⟨final, run, (evenly_dealt ⟨[], ⟨fun _ => 0, 0⟩⟩ run).2.2⟩

end Lucky.Server.System
