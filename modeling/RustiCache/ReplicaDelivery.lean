import RustiCache.ServerPoolSteps

/-!
# Delivery to the replicas

What is propagated goes into the channel of every registered connection, once for
each of its registrations, and from there to the connection in order.  A
connection that is registered once is sent every byte string exactly once.
-/

namespace RustiCache

namespace ServerPool

variable {hasher : String → UInt64} {config : PoolConfig}

/-- A channel whose receiver is alive gets byte strings once for each of its
registrations, and stays registered. -/
def Spreads (channel : ChannelId) (raws : List Bytes)
    (server after : ServerState hasher) : Prop :=
  ∀ queue, server.channels channel = some queue →
    after.channels channel = some (queue ++ raws.flatMap fun raw =>
        List.replicate
          (server.replState.downstreamSenders.count channel) raw) ∧
      after.replState.downstreamSenders.count channel =
        server.replState.downstreamSenders.count channel

theorem spreads_nil {channel : ChannelId} {server after : ServerState hasher}
    (channels : after.channels channel = server.channels channel)
    (senders : after.replState.downstreamSenders.count channel =
      server.replState.downstreamSenders.count channel) :
    Spreads channel [] server after := by
  intro queue alive
  rw [channels, alive, List.flatMap_nil, List.append_nil]
  exact ⟨rfl, senders⟩

theorem spreads_propagateAll (channel : ChannelId) (raws : List Bytes)
    (server : ServerState hasher) :
    Spreads channel raws server
      { server with
        replState := (Command.propagateAll server raws).1
        channels := (Command.propagateAll server raws).2 } := by
  intro queue alive
  simp only [Command.propagateAll]
  induction raws generalizing server queue with
  | nil => exact ⟨by simpa using alive, rfl⟩
  | cons raw raws ih =>
      obtain ⟨received, kept⟩ := ReplicationState.retainSending_alive raw
        server.replState.downstreamSenders alive
      have rest := ih
        { server with
          replState :=
            (server.replState.propagateDownstream server.channels raw).1
          channels :=
            (server.replState.propagateDownstream server.channels raw).2 }
        _ received
      have count : (server.replState.propagateDownstream server.channels
          raw).1.downstreamSenders.count channel =
            server.replState.downstreamSenders.count channel := kept
      simp only [count] at rest
      rw [List.foldl_cons, List.flatMap_cons, ← List.append_assoc]
      exact rest

/-- Nobody is registered by a propagation. -/
theorem count_propagateAll {channel : ChannelId} (raws : List Bytes)
    {server : ServerState hasher}
    (absent : server.replState.downstreamSenders.count channel = 0) :
    (Command.propagateAll server raws).1.downstreamSenders.count channel =
      0 := by
  simp only [Command.propagateAll]
  induction raws generalizing server with
  | nil => exact absent
  | cons raw raws ih =>
      refine @ih
        { server with
          replState :=
            (server.replState.propagateDownstream server.channels raw).1
          channels :=
            (server.replState.propagateDownstream server.channels raw).2 } ?_
      change (ReplicationState.retainSending raw _ _).1.count channel = 0
      rw [ReplicationState.retainSending_kept]
      exact Nat.le_zero.mp ((List.filter_sublist.count_le channel).trans
        absent.le)

section Execution

variable (config : ConnectionConfig) (moment : Moment)
  (server : ServerState hasher) (connection : Connection) (rawCmd : Bytes)
  (cmd : Command)

/-- Executing a command spreads what it propagates. -/
theorem spreads_finish (channel : ChannelId) :
    Spreads channel
      (cmd.propagation server rawCmd config.requirepass
        connection.isAuthenticated)
      server (connection.finish config moment server rawCmd cmd).server := by
  have state := Command.execute_propagation moment server rawCmd
    config.requirepass connection.isAuthenticated cmd
  intro queue alive
  have spread := spreads_propagateAll channel
    (cmd.propagation server rawCmd config.requirepass
      connection.isAuthenticated) server queue alive
  dsimp only at state
  rw [← state] at spread
  exact spread

theorem count_finish {channel : ChannelId}
    (absent : server.replState.downstreamSenders.count channel = 0) :
    (connection.finish config moment server rawCmd
      cmd).server.replState.downstreamSenders.count channel = 0 := by
  have state := Command.execute_propagation moment server rawCmd
    config.requirepass connection.isAuthenticated cmd
  have kept := count_propagateAll (cmd.propagation server rawCmd
    config.requirepass connection.isAuthenticated) absent
  dsimp only at state
  rw [← state] at kept
  exact kept

end Execution

/-- The connection has asked for the stream of writes at most once. -/
def AsksOnce (connection : Connection) : Prop :=
  connection.handled.Pairwise fun earlier later =>
    ¬ (Command.IsPsync earlier.2 ∧ Command.IsPsync later.2)

theorem AsksOnce.earlier {connection next : Connection} (asksOnce : AsksOnce next)
    (handled : connection.handled <+: next.handled) : AsksOnce connection :=
  List.Pairwise.sublist handled.sublist asksOnce

/-- What a connection has been sent, and what waits for it. -/
structure Delivered (server : ServerState hasher) (propagated : List Bytes)
    (channel : ChannelId) (client : Client) : Prop where
  unregistered : client.registered = none → client.forwarded = []
  downstream :
    client.connection.isDownstreamReplica = client.registered.isSome
  requested : client.stage = .announced ∨ client.stage = .transferred ∨
      client.registered ≠ none →
    ∃ frame ∈ client.connection.handled, Command.IsPsync frame.2
  once : AsksOnce client.connection →
    client.stage = .announced ∨ client.stage = .transferred →
      client.registered = none
  live : client.connection.phase ≠ .closed →
    ∃ queue, server.channels channel = some queue ∧
      match client.registered with
      | none => queue = [] ∧
          server.replState.downstreamSenders.count channel = 0
      | some since => AsksOnce client.connection →
          since ≤ propagated.length ∧
            client.forwarded ++ queue = propagated.drop since ∧
            server.replState.downstreamSenders.count channel = 1

section Client

variable {server after : ServerState hasher} {propagated raws : List Bytes}
  {channel : ChannelId} {client : Client}

theorem Delivered.spread (delivered : Delivered server propagated channel client)
    (spreads : Spreads channel raws server after) :
    Delivered after (propagated ++ raws) channel client where
  unregistered := delivered.unregistered
  downstream := delivered.downstream
  requested := delivered.requested
  once := delivered.once
  live stillOpen := by
    obtain ⟨queue, alive, holds⟩ := delivered.live stillOpen
    obtain ⟨received, count⟩ := spreads queue alive
    refine ⟨_, received, ?_⟩
    cases registered : client.registered with
    | none =>
        rw [registered] at holds
        obtain ⟨empty, absent⟩ := holds
        refine ⟨?_, count.trans absent⟩
        simp [empty, absent]
    | some since =>
        rw [registered] at holds
        intro asksOnce
        obtain ⟨early, waiting, present⟩ := holds asksOnce
        refine ⟨?_, ?_, count.trans present⟩
        · rw [List.length_append]
          omega
        · have each : (raws.flatMap fun raw => List.replicate
              (server.replState.downstreamSenders.count channel) raw) =
              raws := by
            simp [present]
          rw [each, List.drop_append_of_le_length early, ← waiting,
            List.append_assoc]

/-- The connection goes on, or closes, without a step of `PSYNC`. -/
theorem Delivered.reconnect {next : Connection} {stage : DispatchStage}
    (delivered : Delivered server propagated channel client)
    (downstream : next.isDownstreamReplica =
      client.connection.isDownstreamReplica)
    (handled : client.connection.handled <+: next.handled)
    (phase : next.phase ≠ .closed → client.connection.phase ≠ .closed)
    (other : stage = .announced ∨ stage = .transferred →
      client.stage = stage) :
    Delivered server propagated channel
      { client with connection := next, stage := stage } where
  unregistered := delivered.unregistered
  downstream := downstream.trans delivered.downstream
  requested asked := by
    obtain ⟨frame, member, psync⟩ := delivered.requested (by
      rcases asked with announced | transferred | registered
      · exact Or.inl ((other (Or.inl announced)).trans announced)
      · exact Or.inr (Or.inl ((other (Or.inr transferred)).trans transferred))
      · exact Or.inr (Or.inr registered))
    exact ⟨frame, handled.subset member, psync⟩
  once asksOnce asked := by
    refine delivered.once (asksOnce.earlier handled) ?_
    rw [other asked]
    exact asked
  live stillOpen := by
    obtain ⟨queue, alive, holds⟩ := delivered.live (phase stillOpen)
    refine ⟨queue, alive, ?_⟩
    cases registered : client.registered with
    | none => rwa [registered] at holds
    | some since =>
        rw [registered] at holds
        exact fun asksOnce => holds (asksOnce.earlier handled)

/-- Nothing is owed to a connection that is closed. -/
theorem Delivered.closed (delivered : Delivered server propagated channel client)
    (closed : client.connection.phase = .closed) (log : List Bytes) :
    Delivered after log channel client where
  unregistered := delivered.unregistered
  downstream := delivered.downstream
  requested := delivered.requested
  once := delivered.once
  live stillOpen := absurd closed stillOpen

end Client

/-- Every connection is sent what it should be, and no channel without a
connection is registered. -/
structure Delivering (pool : ServerPool hasher) : Prop where
  clients : ∀ channel client, pool.clients channel = some client →
    Delivered pool.server pool.propagated channel client
  absent : ∀ channel, pool.clients channel = none →
    pool.server.replState.downstreamSenders.count channel = 0

section Steps

variable {pool : ServerPool hasher}

/-- One connection acts, and byte strings are spread to the others. -/
theorem Delivering.act (delivering : pool.Delivering) {channel : ChannelId}
    {server : ServerState hasher} {client : Client} {raws : List Bytes}
    (acted : Delivered server (pool.propagated ++ raws) channel client)
    (spreads : ∀ other, other ≠ channel →
      Spreads other raws pool.server server)
    (stillAbsent : ∀ other, other ≠ channel →
      pool.server.replState.downstreamSenders.count other = 0 →
        server.replState.downstreamSenders.count other = 0) :
    Delivering ⟨server, Function.update pool.clients channel (some client),
      pool.propagated ++ raws⟩ where
  clients other present isPresent := by
    rcases of_update_eq_some isPresent with ⟨rfl, rfl⟩ | ⟨differ, elsewhere⟩
    · exact acted
    · exact (delivering.clients other present elsewhere).spread
        (spreads other differ)
  absent other isAbsent := by
    obtain ⟨differ, elsewhere⟩ := of_update_eq_none isAbsent
    exact stillAbsent other differ (delivering.absent other elsewhere)

/-- One connection acts, and nothing is propagated. -/
theorem Delivering.move (delivering : pool.Delivering) {channel : ChannelId}
    {server : ServerState hasher} {client : Client}
    (acted : Delivered server pool.propagated channel client)
    (channels : ∀ other, other ≠ channel →
      server.channels other = pool.server.channels other)
    (senders : ∀ other, other ≠ channel →
      server.replState.downstreamSenders.count other =
        pool.server.replState.downstreamSenders.count other) :
    Delivering ⟨server, Function.update pool.clients channel (some client),
      pool.propagated⟩ := by
  rw [← List.append_nil pool.propagated] at acted
  have moved := delivering.act acted
    (fun other differ => spreads_nil (channels other differ)
      (senders other differ))
    (fun other differ absent => (senders other differ).trans absent)
  simpa only [List.append_nil] using moved

theorem noted_of_ne {client : Client} (other : client.stage ≠ .transferred) :
    pool.noted client = client.registered := by
  rw [noted]
  split
  next registering _ => exact absurd registering other
  next => rfl

/-- The step of a connection that drains its buffer. -/
theorem Delivering.turn (delivering : pool.Delivering) {channel : ChannelId}
    {client : Client} (found : pool.clients channel = some client)
    (draining : client.connection.phase = .draining)
    {server : ServerState hasher} {next : Connection} {stage : DispatchStage}
    (turned : client.connection.Turn (config.ofChannel channel) pool.server
      client.stage server next stage) :
    Delivering { pool.update server channel
        { client with
          connection := next
          stage := stage
          registered := pool.noted client } with
      propagated :=
        pool.propagated ++ propagation config pool.server client } := by
  have delivered := delivering.clients channel client found
  have unclosed : client.connection.phase ≠ .closed := by
    rw [draining]
    decide
  simp only [update]
  generalize begun : client.stage = before at turned
  have noted (other : before ≠ .transferred) :
      pool.noted client = client.registered :=
    noted_of_ne (by rwa [begun])
  cases turned with
  | settle authenticated downstream stillOpen handled =>
      rw [propagation_eq_nil begun (by rintro _ _ ⟨⟩), noted (by rintro ⟨⟩),
        List.append_nil]
      exact delivering.move (delivered.reconnect downstream handled
        (fun _ => unclosed) (by simp)) (fun _ _ => rfl) (fun _ _ => rfl)
  | hangUp authenticated downstream closed handled =>
      rw [propagation_eq_nil begun (by rintro _ _ ⟨⟩), noted (by rintro ⟨⟩),
        List.append_nil]
      have closing : Delivered pool.server pool.propagated channel
          { client with connection := _, stage := .ready } :=
        delivered.reconnect downstream handled (fun _ => unclosed) (by simp)
      exact delivering.move (closing.closed closed _)
        (fun other differ => Function.update_of_ne differ _ _)
        (fun _ _ => rfl)
  | check cut accepted decoded passed =>
      rw [propagation_eq_nil begun (by rintro _ _ ⟨⟩), noted (by rintro ⟨⟩),
        List.append_nil]
      exact delivering.move (delivered.reconnect rfl (List.prefix_append _ _)
        (fun _ => unclosed) (by simp)) (fun _ _ => rfl) (fun _ _ => rfl)
  | @announce rawCmd tail value cut accepted psync =>
      rw [propagation_eq_nil begun (by rintro _ _ ⟨⟩), noted (by rintro ⟨⟩),
        List.append_nil]
      have cutOff : Delivered pool.server pool.propagated channel
          { client with
            connection := { client.connection with
              buffer := tail
              handled := client.connection.handled ++ [(rawCmd, value)]
              sent := client.connection.sent ++
                resyncLine pool.server.replState.masterReplid }
            stage := .ready } :=
        delivered.reconnect rfl (List.prefix_append _ _) (fun _ => unclosed)
          (by simp)
      refine delivering.move ?_ (fun _ _ => rfl) (fun _ _ => rfl)
      exact
        { unregistered := cutOff.unregistered
          downstream := cutOff.downstream
          live := cutOff.live
          requested := fun _ => ⟨(rawCmd, value), by simp, psync⟩
          once := fun asksOnce _ => by
            by_contra registered
            obtain ⟨frame, member, asked⟩ :=
              delivered.requested (Or.inr (Or.inr registered))
            exact (List.pairwise_append.mp asksOnce).2.2 frame member
              (rawCmd, value) (by simp) ⟨asked, psync⟩ }
  | finish moment rawCmd cmd =>
      have passes : propagation config pool.server client =
          cmd.propagation pool.server rawCmd config.requirepass
            client.connection.isAuthenticated := by
        rw [propagation, begun]
      rw [noted (by rintro ⟨⟩), passes]
      have spreads := spreads_finish (config.ofChannel channel) moment
        pool.server client.connection rawCmd cmd
      refine delivering.act ((delivered.spread (spreads channel)).reconnect rfl
        List.prefix_rfl (fun _ => unclosed) (by simp))
        (fun other _ => spreads other) ?_
      exact fun other _ absent => count_finish _ _ _ _ _ _ absent
  | transfer =>
      rw [propagation_eq_nil begun (by rintro _ _ ⟨⟩), noted (by rintro ⟨⟩),
        List.append_nil]
      refine delivering.move ?_ (fun _ _ => rfl) (fun _ _ => rfl)
      exact
        { unregistered := delivered.unregistered
          downstream := delivered.downstream
          requested := fun _ => delivered.requested (Or.inl begun)
          once := fun asksOnce _ => delivered.once asksOnce (Or.inl begun)
          live := delivered.live }
  | register =>
      have asked := delivered.requested (Or.inr (Or.inl begun))
      have fresh := fun asksOnce => delivered.once asksOnce (Or.inr begun)
      obtain ⟨queue, alive, holds⟩ := delivered.live unclosed
      rw [propagation_eq_nil begun (by rintro _ _ ⟨⟩), List.append_nil]
      refine delivering.move ?_ (fun _ _ => rfl) ?_
      · refine ⟨?_, ?_, fun _ => asked, ?_, fun _ => ⟨queue, alive, ?_⟩⟩
        · cases known : client.registered <;>
            simp [ServerPool.noted, begun, known]
        · cases known : client.registered <;>
            simp [ServerPool.noted, begun, known]
        · intro _ waiting
          rcases waiting with announced | transferred
          · cases announced
          · cases transferred
        · cases known : client.registered with
          | none =>
              rw [known] at holds
              obtain ⟨rfl, absent⟩ := holds
              simp only [ServerPool.noted, begun, known]
              exact fun _ => ⟨le_rfl, by simp [delivered.unregistered known],
                by simp [ReplicationState.registerDownstream, absent,
                  PoolConfig.ofChannel]⟩
          | some since =>
              simp only [ServerPool.noted, begun, known]
              intro asksOnce
              exact absurd (fresh asksOnce) (by simp [known])
      · intro other differ
        simp [ReplicationState.registerDownstream, PoolConfig.ofChannel,
          List.count_append, Ne.symm differ]

end Steps

end ServerPool

end RustiCache
