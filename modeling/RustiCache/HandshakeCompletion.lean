import RustiCache.HandshakeLockStep

/-!
# The handshake can always be completed

From every state of the handshake some run leads to the start of the stream: a
command on its way can be delivered and answered, and a reply on its way can be
received and read.
-/

namespace RustiCache

namespace ReplicationLink

open HandshakeStage (distance)

variable {hasher : String → UInt64} {config : ConnectionConfig}
  {masterauth : Option String} {myPort : UInt16} {replid : String}
  {link : ReplicationLink hasher}

/-- The master has handled all that has been sent to it. -/
def Idle (link : ReplicationLink hasher) : Prop :=
  link.master.connection.buffer ++ link.toMaster = []

/-- Once the master has answered, the next part of the reply can be read, or
there is more of it to receive. -/
theorem InLockStep.advance_or_receive
    (admissible : Admissible config masterauth myPort replid)
    (inLockStep : InLockStep config masterauth myPort replid link)
    (reading : (ReplicaTask.eofReason link.replica.stage).isSome)
    (idle : link.Idle) :
    (∃ replica, link.replica.advance = some replica ∧
        replica.stage.distance < link.replica.stage.distance) ∨
      (link.replica.advance = none ∧ link.inFlight ≠ []) := by
  obtain ⟨asked, owed, wires, turn⟩ := inLockStep
  have due {piece later : Bytes} {stage : HandshakeStage}
      {replState : ReplicationState} (split : owed = piece ++ later)
      (closer : stage.distance < link.replica.stage.distance)
      (reads : link.replica.ReadsOff piece stage replState) :
      (∃ replica, link.replica.advance = some replica ∧
          replica.stage.distance < link.replica.stage.distance) ∨
        (link.replica.advance = none ∧ link.inFlight ≠ []) := by
    have pending := wires.pending
    have written := wires.written
    rw [split, List.append_assoc] at pending
    rw [split, List.length_append] at written
    rcases reads pending with ⟨waits, short⟩ | ⟨tail, -, goesOn⟩
    · right
      refine ⟨waits, ?_⟩
      rw [← List.length_pos_iff]
      omega
    · exact .inl ⟨_, goesOn, closer⟩
  cases turn with
  | sending split stage =>
      rw [stage] at reading
      cases reading
  | @asking past later cmd split stage covered reads unregistered =>
      have nonempty : cmd.bytes ≠ [] :=
        (HandshakeCommand.accepts (HandshakeCommand.short_of_handshake
          admissible.storable (by rw [split]; simp))).ne_nil
      exact absurd (wires.asked.symm.trans idle) nonempty
  | @answered past later cmd before reply split simple line stage covered
      replies reads unregistered =>
      refine due (List.append_nil owed).symm ?_
        (ReplicaTask.readsOff_simple stage simple line)
      cases later with
      | nil =>
          exact absurd ((HandshakeCommand.last_iff_psync split).mp rfl) simple
      | cons following others =>
          rw [stage]
          simp only [ReplicaTask.proceed, distance, List.length_cons]
          omega
  | resyncing covered replies reads isRegistered resync =>
      rcases resync.next admissible.nonempty admissible.solid with
        ⟨stage, -⟩ | ⟨piece, later, stage, replState, split, closer, readsOff, -⟩
      · rw [stage] at reading
        cases reading
      · exact due split closer readsOff

theorem receive_waiting {task : ReplicaTask} {chunk : Bytes}
    (reading : (ReplicaTask.eofReason task.stage).isSome)
    (waits : task.advance = none) (nonempty : chunk ≠ []) :
    task.receive chunk = some { task with buffer := task.buffer ++ chunk } := by
  obtain ⟨reason, found⟩ := Option.isSome_iff_exists.mp reading
  simp only [ReplicaTask.receive, found, waits, if_neg nonempty]

/-- Once the master has answered, the replica can read on. -/
theorem InLockStep.reads_on
    (admissible : Admissible config masterauth myPort replid)
    (inLockStep : InLockStep config masterauth myPort replid link)
    (reading : (ReplicaTask.eofReason link.replica.stage).isSome)
    (idle : link.Idle) :
    ∃ actions next, Reaches (step config) (Respects config) link actions next ∧
      next.replica.stage.distance < link.replica.stage.distance := by
  have advances {state : ReplicationLink hasher} {replica : ReplicaTask}
      (advanced : state.replica.advance = some replica) :
      Reaches (step config) (Respects config) state [.advance]
        { state with replica := replica } := by
    apply Reaches.single trivial
    simp only [step, advanced, Option.map_some]
  rcases inLockStep.advance_or_receive admissible reading idle with
    ⟨replica, advanced, closer⟩ | ⟨waits, more⟩
  · exact ⟨_, _, advances advanced, closer⟩
  · -- All that is in flight is received, and then there is nothing to wait for.
    have bounds : 0 < link.inFlight.length ∧
        link.inFlight.length ≤ link.inFlight.length :=
      ⟨List.length_pos_iff.mpr more, Nat.le_refl _⟩
    have whole : link.inFlight.take link.inFlight.length ≠ [] := by
      rw [List.take_length]
      exact more
    let next : ReplicationLink hasher :=
      { link with
        replica := { link.replica with
          buffer := link.replica.buffer ++
            link.inFlight.take link.inFlight.length }
        received := link.received + link.inFlight.length }
    have taken : step config link (.receive link.inFlight.length) =
        some next := by
      simp only [step, if_pos bounds, receive_waiting reading waits whole,
        Option.map_some, next]
    have landed : next.inFlight = [] := by
      change link.master.connection.sent.drop
        (link.received + link.inFlight.length) = []
      rw [← List.drop_drop, ← inFlight, List.drop_length]
    have respects : Respects config link (.receive link.inFlight.length) :=
      trivial
    have kept := inLockStep.kept admissible respects taken
    rcases kept.advance_or_receive admissible reading idle with
      ⟨replica, advanced, closer⟩ | ⟨-, missing⟩
    · exact ⟨_, _, (Reaches.single respects taken).append (advances advanced),
        closer⟩
    · exact absurd landed missing

/-- A drain round answers a command that has arrived, or leaves the master
waiting. -/
theorem InLockStep.process_round
    (admissible : Admissible config masterauth myPort replid)
    (inLockStep : InLockStep config masterauth myPort replid link)
    (draining : link.master.connection.phase = .draining) (moment : Moment) :
    ∃ next, step config link (.process moment) = some next ∧
      next.replica = link.replica ∧
      (next.Idle ∨ link.toMaster ≠ [] ∧
        next.master.connection.phase = .waiting) := by
  obtain ⟨asked, owed, wires, turn⟩ := inLockStep
  obtain ⟨value, accepted⟩ := turn.accepted admissible
  have taken : step config link (.process moment) =
      some (link.logAnswers (link.master.connection.drain config moment
        link.master.server)) := by
    simp only [step, Session.step, if_pos draining, Option.map_some]
  refine ⟨_, taken, rfl, ?_⟩
  rcases wires.drain value accepted moment with
    ⟨more, rests⟩ | ⟨-, whole, dispatched⟩
  · by_cases arrived : link.toMaster = []
    · left
      have buffer := wires.asked
      rw [arrived, List.append_nil] at buffer
      by_cases nothing : asked = []
      · rw [Idle, logAnswers, rests, arrived, List.append_nil]
        exact buffer.trans nothing
      · have found := accepted nothing
        rw [← buffer] at found
        change Value.attempt _ = _ at found
        rw [more] at found
        cases found
    · right
      refine ⟨arrived, ?_⟩
      rw [logAnswers, rests]
  · left
    rw [Idle, logAnswers, dispatched, whole, List.append_nil]
    exact (Connection.dispatch_connection config moment _ _ _ _).1

/-- What is on its way to a waiting master can be delivered at once. -/
theorem InLockStep.deliver_all
    (admissible : Admissible config masterauth myPort replid)
    (inLockStep : InLockStep config masterauth myPort replid link)
    (waiting : link.master.connection.phase = .waiting) :
    link.Idle ∨
      ∃ next, step config link (.deliver link.toMaster.length) = some next ∧
        next.replica = link.replica ∧ next.toMaster = [] ∧
        next.master.connection.phase = .draining := by
  obtain ⟨asked, owed, wires, turn⟩ := inLockStep
  have buffer := wires.asked
  by_cases arrived : link.toMaster = []
  · left
    obtain ⟨value, accepted⟩ := turn.accepted admissible
    rw [Idle, buffer]
    rw [arrived, List.append_nil] at buffer
    by_contra busy
    have found := accepted busy
    change Value.attempt asked = _ at found
    rw [← buffer, wires.settled waiting] at found
    cases found
  · right
    have fits : (link.master.connection.buffer ++ link.toMaster).length ≤
        config.maxPayloadSize := by
      rw [buffer]
      exact turn.asked_fits admissible
    have bounds : 0 < link.toMaster.length ∧
        link.toMaster.length ≤ link.toMaster.length :=
      ⟨List.length_pos_iff.mpr arrived, Nat.le_refl _⟩
    simp only [step, Session.step, if_pos bounds, if_pos waiting,
      List.take_length, Option.map_some,
      Connection.receive_fitting config link.master.server arrived fits]
    exact ⟨_, rfl, rfl, List.drop_length, rfl⟩

/-- A waiting master can be brought to have handled all. -/
theorem InLockStep.idles_from_waiting
    (admissible : Admissible config masterauth myPort replid)
    (inLockStep : InLockStep config masterauth myPort replid link)
    (waiting : link.master.connection.phase = .waiting) (moment : Moment) :
    ∃ actions next, Reaches (step config) (Respects config) link actions next ∧
      next.replica = link.replica ∧ next.Idle := by
  rcases inLockStep.deliver_all admissible waiting with
    idle | ⟨filled, taken, same, whole, draining⟩
  · exact ⟨[], link, .refl link, rfl, idle⟩
  · have respects : Respects config link (.deliver link.toMaster.length) :=
      trivial
    have respectsNext : Respects config filled (.process moment) := trivial
    obtain ⟨next, processed, unchanged, idle | ⟨missing, -⟩⟩ :=
      (inLockStep.kept admissible respects taken).process_round admissible
        draining moment
    · exact ⟨_, next, (Reaches.single respects taken).append
        (Reaches.single respectsNext processed), unchanged.trans same, idle⟩
    · exact absurd whole missing

/-- The master can always be brought to have handled all. -/
theorem InLockStep.idles
    (admissible : Admissible config masterauth myPort replid)
    (inLockStep : InLockStep config masterauth myPort replid link)
    (moment : Moment) :
    ∃ actions next, Reaches (step config) (Respects config) link actions next ∧
      next.replica = link.replica ∧ next.Idle := by
  cases phase : link.master.connection.phase with
  | waiting => exact inLockStep.idles_from_waiting admissible phase moment
  | draining =>
      have respects : Respects config link (.process moment) := trivial
      obtain ⟨next, processed, same, outcome⟩ :=
        inLockStep.process_round admissible phase moment
      have first := Reaches.single respects processed
      rcases outcome with idle | ⟨-, waiting⟩
      · exact ⟨_, next, first, same, idle⟩
      · obtain ⟨actions, last, after, unchanged, idle⟩ :=
          (inLockStep.kept admissible respects processed).idles_from_waiting
            admissible waiting moment
        exact ⟨_, last, first.append after, unchanged.trans same, idle⟩
  | closed =>
      obtain ⟨asked, owed, wires, -⟩ := inLockStep
      exact absurd phase wires.stillOpen

/-- While the replica waits for a reply, some run lets it read on. -/
theorem InLockStep.progress_reading
    (admissible : Admissible config masterauth myPort replid)
    (inLockStep : InLockStep config masterauth myPort replid link)
    (reading : (ReplicaTask.eofReason link.replica.stage).isSome)
    (moment : Moment) :
    ∃ actions next, Reaches (step config) (Respects config) link actions next ∧
      next.replica.stage.distance < link.replica.stage.distance := by
  obtain ⟨first, answered, before, same, idle⟩ :=
    inLockStep.idles admissible moment
  have kept := before.invariant (fun holds respects taken =>
    InLockStep.kept admissible holds respects taken) inLockStep
  rw [← same] at reading ⊢
  obtain ⟨second, next, after, closer⟩ := kept.reads_on admissible reading idle
  exact ⟨_, next, before.append after, closer⟩

/-- Before the stream starts, some run brings the replica closer to it. -/
theorem InLockStep.progress
    (admissible : Admissible config masterauth myPort replid)
    (inLockStep : InLockStep config masterauth myPort replid link)
    (early : link.replica.stage.distance ≠ 0) (moment : Moment) :
    ∃ actions next, Reaches (step config) (Respects config) link actions next ∧
      next.replica.stage.distance < link.replica.stage.distance := by
  have reads := inLockStep.progress_reading admissible
  cases stage : link.replica.stage with
  | sending cmd later =>
      have respects : Respects config link .send := trivial
      have taken : step config link .send = some
          { link with
            replica := { link.replica with
              stage := .awaiting cmd later
              reads := link.replica.reads ++ [(cmd.bytes, [])] }
            toMaster := link.toMaster ++ cmd.bytes } := by
        simp only [step, ReplicaTask.send, stage, Option.map_some]
      exact ⟨_, _, Reaches.single respects taken, Nat.lt_succ_self _⟩
  | awaiting cmd later =>
      rw [stage] at reads
      exact reads (by cases cmd <;> rfl) moment
  | rdbHeader =>
      rw [stage] at reads
      exact reads rfl moment
  | rdbPayload rdbLen =>
      rw [stage] at reads
      exact reads rfl moment
  | streaming => exact absurd (by rw [stage]; rfl) early
  | failed reason => exact absurd (by rw [stage]; rfl) early

/-- Some run leads to the start of the stream. -/
theorem InLockStep.completes
    (admissible : Admissible config masterauth myPort replid)
    (inLockStep : InLockStep config masterauth myPort replid link)
    (moment : Moment) :
    ∃ actions final, Reaches (step config) (Respects config) link actions
      final ∧ final.replica.stage = .streaming := by
  obtain ⟨actions, final, reaches, kept, finished⟩ := reaches_zero
    (fun state : ReplicationLink hasher => state.replica.stage.distance)
    (fun {state} holds early => by
      obtain ⟨actions, next, reaches, closer⟩ :=
        InLockStep.progress admissible holds early moment
      exact ⟨actions, next, reaches, reaches.invariant
        (fun holds respects taken =>
          InLockStep.kept admissible holds respects taken) holds, closer⟩)
    inLockStep
  obtain ⟨asked, owed, -, turn⟩ := kept
  refine ⟨actions, final, reaches, ?_⟩
  cases stage : final.replica.stage with
  | streaming => rfl
  | failed reason => exact absurd stage (turn.not_failed reason)
  | _ => simp [stage, distance] at finished

end ReplicationLink

end RustiCache
