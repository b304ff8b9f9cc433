import RustiCache.ReplicaDelivery

/-!
# Exactly-once delivery

As long as a connection does not ask for the stream of writes twice, every byte
string that is propagated after it has been registered is written to it once and
in order, whatever the other connections do.
-/

namespace RustiCache

namespace ServerPool

variable {hasher : String → UInt64} {config : PoolConfig}
  {pool next : ServerPool hasher}

theorem Delivering.forward (delivering : pool.Delivering) {channel : ChannelId}
    {client : Client} (found : pool.clients channel = some client)
    (waiting : client.connection.phase = .waiting)
    (downstream : client.connection.isDownstreamReplica = true)
    {replicatedBytes : Bytes} {queue : List Bytes}
    (queued : pool.server.channels channel = some (replicatedBytes :: queue)) :
    Delivering (pool.update
      { pool.server with
        channels := Function.update pool.server.channels channel (some queue) }
      channel
      { client with
        connection := { client.connection.write replicatedBytes with
          phase := .draining }
        forwarded := client.forwarded ++ [replicatedBytes] }) := by
  have delivered := delivering.clients channel client found
  have isRegistered : client.registered.isSome = true :=
    delivered.downstream.symm.trans downstream
  obtain ⟨since, registered⟩ := Option.isSome_iff_exists.mp isRegistered
  obtain ⟨whole, alive, holds⟩ := delivered.live (by rw [waiting]; decide)
  rw [registered] at holds
  rw [queued] at alive
  cases alive
  refine delivering.move ?_
    (fun other differ => Function.update_of_ne differ _ _) (fun _ _ => rfl)
  exact
    { unregistered := fun fresh => by
        rw [registered] at fresh
        cases fresh
      downstream := delivered.downstream
      requested := delivered.requested
      once := delivered.once
      live := fun _ => by
        refine ⟨queue, Function.update_self .., ?_⟩
        simp only [registered]
        intro asksOnce
        obtain ⟨early, split, count⟩ := holds asksOnce
        refine ⟨early, ?_, count⟩
        rw [← split, List.append_assoc]
        rfl }

/-- Every step keeps delivery exact. -/
theorem delivering_step {action : PoolAction} (delivering : pool.Delivering)
    (taken : pool.step config action = some next) : next.Delivering := by
  cases transition_of_step taken with
  | @accept channel fresh =>
      refine delivering.move ?_
        (fun other differ => Function.update_of_ne differ _ _)
        (fun _ _ => rfl)
      exact
        { unregistered := fun _ => rfl
          downstream := rfl
          requested := by simp
          once := fun _ _ => rfl
          live := fun _ => ⟨[], Function.update_self .., rfl,
            delivering.absent channel fresh⟩ }
  | @hangUp action channel client last own found stillOpen closed authenticated
      downstream handled =>
      have delivered := delivering.clients channel client found
      have closing : Delivered pool.server pool.propagated channel
          { client with connection := last } :=
        delivered.reconnect downstream (handled ▸ List.prefix_rfl)
          (fun _ => stillOpen) (fun _ => rfl)
      exact delivering.move (closing.closed closed _)
        (fun other differ => Function.update_of_ne differ _ _)
        (fun _ _ => rfl)
  | @fill channel client chunk found waiting nonempty =>
      have delivered := delivering.clients channel client found
      exact delivering.move (delivered.reconnect rfl List.prefix_rfl
        (fun _ => by rw [waiting]; decide) (fun _ => rfl)) (fun _ _ => rfl)
        (fun _ _ => rfl)
  | forward found waiting downstream queued =>
      exact delivering.forward found waiting downstream queued
  | turn found draining turned =>
      exact delivering.turn found draining turned
  | propagate rawResp =>
      refine ⟨fun channel client found => ?_, fun channel absent => ?_⟩
      · exact (delivering.clients channel client found).spread
          (spreads_propagateAll channel [rawResp] pool.server)
      · exact count_propagateAll [rawResp] (delivering.absent channel absent)
  | purge now samplePerShard =>
      refine ⟨fun channel client found => ?_, delivering.absent⟩
      have kept := (delivering.clients channel client found).spread
        (spreads_nil rfl rfl : Spreads channel [] pool.server
          { pool.server with
            db := (pool.server.db.purgeExpiredSample now samplePerShard).2 })
      rwa [List.append_nil] at kept

theorem delivering_start {server : ServerState hasher}
    (nobody : server.replState.downstreamSenders = []) :
    (start server).Delivering where
  clients _ _ found := by cases found
  absent channel _ := by
    change server.replState.downstreamSenders.count channel = 0
    rw [nobody]
    rfl

/-- Every byte string propagated after a connection's registration is written to
it once, in order, or waits in its channel to be written next, if it has asked
once; nothing is written to a connection that has not sent `PSYNC`. -/
theorem delivered_exactly_once {server : ServerState hasher}
    (nobody : server.replState.downstreamSenders = [])
    {actions : List PoolAction}
    (reaches : Reaches (step config) (fun _ _ => True) (start server) actions
      pool)
    {channel : ChannelId} {client : Client}
    (found : pool.clients channel = some client) :
    (client.registered = none → client.forwarded = []) ∧
      (client.registered ≠ none →
        ∃ frame ∈ client.connection.handled, Command.IsPsync frame.2) ∧
      (AsksOnce client.connection → client.connection.phase ≠ .closed →
        ∀ since, client.registered = some since →
          ∃ queue, pool.server.channels channel = some queue ∧
            client.forwarded ++ queue = pool.propagated.drop since ∧
            ∀ first rest, queue = first :: rest →
              client.connection.phase = .waiting →
                ∃ next last, pool.step config (.replicate channel) = some next ∧
                  next.clients channel = some last ∧
                  last.forwarded = client.forwarded ++ [first] ∧
                  last.connection.sent = client.connection.sent ++ first) := by
  have delivering : pool.Delivering := reaches.invariant
    (fun delivering _ taken => delivering_step delivering taken)
    (delivering_start nobody)
  have delivered := delivering.clients channel client found
  refine ⟨delivered.unregistered,
    fun registered => delivered.requested (Or.inr (Or.inr registered)), ?_⟩
  intro asksOnce stillOpen since registered
  obtain ⟨queue, alive, holds⟩ := delivered.live stillOpen
  rw [registered] at holds
  refine ⟨queue, alive, (holds asksOnce).2.1, ?_⟩
  rintro first rest rfl waiting
  have downstream : client.connection.isDownstreamReplica = true := by
    rw [delivered.downstream, registered]
    rfl
  have taken : pool.step config (.replicate channel) =
      some (pool.put channel
        { client with forwarded := client.forwarded ++ [first] }
        ⟨{ pool.server with
            channels :=
              Function.update pool.server.channels channel (some rest) },
          { client.connection.write first with phase := .draining }⟩) := by
    simp [step, found, waiting, Connection.forward, downstream,
      PoolConfig.ofChannel, alive]
  exact ⟨_, _, taken, Function.update_self .., rfl, rfl⟩

/-- A connection sends `PSYNC` a number of times and is drained. -/
def psyncActions (times : Nat) : List PoolAction :=
  [.accept 0,
    .read 0 (List.replicate times HandshakeCommand.psync.bytes).flatten] ++
    List.replicate (3 * times + 1) (.process 0 ⟨fun _ => 0, .front⟩)

def emptyMaster : ServerState fun _ => 0 :=
  ⟨.withConfig _ 1 0, .newMaster none, fun _ => none, none⟩

/-- Two writes, of which one has been forwarded. -/
theorem delivered_exactly_once_twoWrites :
    ∃ pool client, Reaches (step ⟨none, 1024⟩) (fun _ _ => True)
        (start emptyMaster)
        (psyncActions 1 ++
          [.propagate [1], .propagate [2], .replicate 0]) pool ∧
      pool.clients 0 = some client ∧ AsksOnce client.connection ∧
      client.forwarded = [[1]] ∧
      ∃ queue, pool.server.channels 0 = some queue ∧
        client.forwarded ++ queue = [[1], [2]] := by
  have ran : (runActions (step ⟨none, 1024⟩) (start emptyMaster)
      (psyncActions 1 ++ [.propagate [1], .propagate [2], .replicate 0])).map
        (fun pool => decide (pool.propagated = [[1], [2]] ∧
          (pool.clients 0).map (fun client => (client.forwarded,
            client.registered, client.connection.phase,
            client.connection.handled.length)) =
              some ([[1]], some 0, .draining, 1))) = some true := by
    decide +kernel
  obtain ⟨pool, reached, checked⟩ := Option.map_eq_some_iff.mp ran
  obtain ⟨log, shown⟩ := of_decide_eq_true checked
  obtain ⟨client, found, fields⟩ := Option.map_eq_some_iff.mp shown
  simp only [Prod.mk.injEq] at fields
  obtain ⟨forwarded, registered, phase, handled⟩ := fields
  have reaches := reaches_of_runActions reached
  have asksOnce : AsksOnce client.connection := by
    obtain ⟨frame, single⟩ := List.length_eq_one_iff.mp handled
    rw [AsksOnce, single]
    exact List.pairwise_singleton _ _
  obtain ⟨-, -, exactly⟩ := delivered_exactly_once rfl reaches found
  obtain ⟨queue, alive, split, -⟩ :=
    exactly asksOnce (by rw [phase]; decide) 0 registered
  refine ⟨pool, client, reaches, found, asksOnce, forwarded, queue, alive, ?_⟩
  rw [split, log]
  rfl

/-- A connection that sends `PSYNC` twice is sent every write twice. -/
theorem second_psync_doubles :
    ∃ pool client, Reaches (step ⟨none, 1024⟩) (fun _ _ => True)
        (start emptyMaster)
        (psyncActions 2 ++ [.propagate [1], .replicate 0,
          .process 0 ⟨fun _ => 0, .front⟩, .replicate 0]) pool ∧
      pool.clients 0 = some client ∧ client.connection.phase ≠ .closed ∧
      client.registered = some 0 ∧ pool.propagated = [[1]] ∧
      client.forwarded = [[1], [1]] := by
  have ran : (runActions (step ⟨none, 1024⟩) (start emptyMaster)
      (psyncActions 2 ++ [.propagate [1], .replicate 0,
        .process 0 ⟨fun _ => 0, .front⟩, .replicate 0])).map
        (fun pool => decide (pool.propagated = [[1]] ∧
          (pool.clients 0).map (fun client => (client.forwarded,
            client.registered, client.connection.phase)) =
              some ([[1], [1]], some 0, .draining))) = some true := by
    decide +kernel
  obtain ⟨pool, reached, checked⟩ := Option.map_eq_some_iff.mp ran
  obtain ⟨log, shown⟩ := of_decide_eq_true checked
  obtain ⟨client, found, fields⟩ := Option.map_eq_some_iff.mp shown
  simp only [Prod.mk.injEq] at fields
  obtain ⟨forwarded, registered, phase⟩ := fields
  exact ⟨pool, client, reaches_of_runActions reached, found,
    by rw [phase]; decide, registered, log, forwarded⟩

end ServerPool

end RustiCache
