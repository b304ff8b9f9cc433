import RustiCache.ReplicaAcknowledgements
import RustiCache.ReplicaKeyspace

/-!
# Replicas of a replica

A replica answers `PSYNC` like a master: it sends the snapshot and registers the
connection.  But it passes nothing on, neither what its clients write nor what
it has from its master, so a replica that follows it keeps the empty snapshot.
-/

namespace RustiCache

variable {hasher : String → UInt64}

/-- The server of a replica that has passed nothing on. -/
structure ServerState.Withholds (server : ServerState hasher) : Prop where
  replica : server.replState.isReplica = true
  offset : server.replState.masterReplOffset = 0
  queues : ∀ channel queue, server.channels channel = some queue → queue = []

namespace ServerState.Withholds

variable {server after : ServerState hasher} (withholds : server.Withholds)

include withholds

theorem of_same (role : after.replState.role = server.replState.role)
    (offset : after.replState.masterReplOffset =
      server.replState.masterReplOffset)
    (channels : after.channels = server.channels) : after.Withholds where
  replica := by
    rw [ReplicationState.isReplica, role]
    exact withholds.replica
  offset := offset.trans withholds.offset
  queues := by
    rw [channels]
    exact withholds.queues

/-- A channel is opened, or its receiving end is dropped. -/
theorem update {queue : Option (List Bytes)} (empty : ∀ bytes ∈ queue, bytes = [])
    (channel : ChannelId) :
    { server with
      channels := Function.update server.channels channel queue }.Withholds where
  replica := withholds.replica
  offset := withholds.offset
  queues := by
    intro other found isFound
    dsimp only at isFound
    by_cases same : other = channel
    · rw [same, Function.update_self] at isFound
      exact empty found isFound
    · rw [Function.update_of_ne same] at isFound
      exact withholds.queues other found isFound

/-- A replica propagates no command. -/
theorem propagation_nil (rawCmd : Bytes) (requirepass : Option String)
    (isAuthenticated : Bool) (cmd : Command) :
    cmd.propagation server rawCmd requirepass isAuthenticated = [] := by
  cases cmd <;> simp [Command.propagation, withholds.replica]

theorem finish (config : ConnectionConfig) (moment : Moment)
    (connection : Connection) (rawCmd : Bytes) (cmd : Command) :
    (connection.finish config moment server rawCmd cmd).server.Withholds := by
  have changes := Command.execute_propagation moment server rawCmd
    config.requirepass connection.isAuthenticated cmd
  rw [withholds.propagation_nil] at changes
  obtain ⟨replState, channels⟩ := Prod.mk.inj changes
  exact withholds.of_same (congrArg ReplicationState.role replState)
    (congrArg ReplicationState.masterReplOffset replState) channels

end ServerState.Withholds

namespace Follower

variable {follower next : Follower hasher}

/-- The task does not act on the channels nor on the server's own count of
propagated bytes. -/
structure Withholds (follower next : Follower hasher) : Prop where
  role : next.server.replState.role = follower.server.replState.role
  offset : next.server.replState.masterReplOffset =
    follower.server.replState.masterReplOffset
  channels : next.server.channels = follower.server.channels

end Follower

/-- The handshake changes the replication state by the identifier at most. -/
theorem ReplicaTask.replState_advance {task next : ReplicaTask}
    (advanced : task.advance = some next) :
    ∃ id, next.replState = task.replState.setReplid id := by
  have same : task.replState =
      task.replState.setReplid task.replState.masterReplid := rfl
  rw [advance] at advanced
  split at advanced
  next later _ =>
    obtain ⟨cut, -, rfl⟩ := Option.map_eq_some_iff.mp advanced
    dsimp only
    split
    next => exact ⟨_, same⟩
    next =>
      split
      next =>
        dsimp only
        split
        next => exact ⟨_, rfl⟩
        next => exact ⟨_, same⟩
      next => exact ⟨_, same⟩
  next =>
    obtain ⟨cut, -, rfl⟩ := Option.map_eq_some_iff.mp advanced
    exact ⟨_, same⟩
  next =>
    rw [readRdbHeader] at advanced
    split at advanced
    next =>
      obtain ⟨cut, -, rfl⟩ := Option.map_eq_some_iff.mp advanced
      dsimp only
      split
      next => exact ⟨_, same⟩
      next =>
        split
        next => exact ⟨_, same⟩
        next => exact ⟨_, same⟩
    next => cases advanced
  next =>
    rw [readRdbPayload] at advanced
    split at advanced
    next => cases advanced
    next =>
      cases advanced
      exact ⟨_, same⟩
  next => cases advanced

namespace Follower

variable {follower next : Follower hasher}

theorem withholds_send (sent : follower.send = some next) :
    Withholds follower next := by
  cases follower with
  | syncing server task =>
      obtain ⟨after, sends, rfl⟩ := Option.map_eq_some_iff.mp sent
      rw [ReplicaTask.send] at sends
      split at sends
      next =>
        cases sends
        exact ⟨rfl, rfl, rfl⟩
      next => cases sends
  | streaming stream => cases sent

theorem withholds_receive {chunk : Bytes}
    (received : follower.receive chunk = some next) :
    Withholds follower next := by
  cases follower with
  | syncing server task =>
      obtain ⟨after, reads, rfl⟩ := Option.map_eq_some_iff.mp received
      rw [ReplicaTask.receive] at reads
      split at reads
      next =>
        split at reads
        next =>
          cases reads
          exact ⟨rfl, rfl, rfl⟩
        next =>
          cases reads
          exact ⟨rfl, rfl, rfl⟩
      next => cases reads
  | streaming stream =>
      obtain ⟨after, read, rfl⟩ := Option.map_eq_some_iff.mp received
      cases ReplicaStream.transition_of_step read with
      | read chunk reading =>
          unfold ReplicaStream.receive
          split <;> exact ⟨rfl, rfl, rfl⟩

theorem withholds_advance (advanced : follower.advance = some next) :
    Withholds follower next := by
  cases follower with
  | syncing server task =>
      obtain ⟨after, advances, rfl⟩ := Option.map_eq_some_iff.mp advanced
      obtain ⟨id, replState⟩ := ReplicaTask.replState_advance advances
      have role : after.replState.role = task.replState.role := by
        rw [replState]
        rfl
      have offset : after.replState.masterReplOffset =
          task.replState.masterReplOffset := by
        rw [replState]
        rfl
      split
      next => exact ⟨role, offset, rfl⟩
      next => exact ⟨role, offset, rfl⟩
  | streaming stream => cases advanced

theorem withholds_replay {moment : Moment}
    (replayed : follower.replay moment = some next) :
    Withholds follower next := by
  cases follower with
  | syncing server task => cases replayed
  | streaming stream =>
      obtain ⟨after, round, rfl⟩ := Option.map_eq_some_iff.mp replayed
      obtain ⟨channels, replState⟩ := ReplicaStream.quiet_process round
      refine ⟨?_, ?_, channels⟩
      · exact congrArg (·.role) replState
      · exact congrArg (·.masterReplOffset) replState

end Follower

/-- No connection of the server has been sent anything of a write. -/
structure ServerPool.Withholds (pool : ServerPool hasher) : Prop where
  server : pool.server.Withholds
  propagated : pool.propagated = []
  forwarded : ∀ channel client, pool.clients channel = some client →
    client.forwarded = []

namespace ServerPool.Withholds

variable {config : PoolConfig} {pool next : ServerPool hasher}
  (withholds : pool.Withholds)

include withholds

/-- A connection acts on the server and writes nothing from its channel. -/
theorem update {server : ServerState hasher} (kept : server.Withholds)
    {channel : ChannelId} {client : Client} (forwarded : client.forwarded = []) :
    (pool.update server channel client).Withholds where
  server := kept
  propagated := withholds.propagated
  forwarded := by
    intro other found isFound
    rcases of_update_eq_some isFound with ⟨-, rfl⟩ | ⟨-, before⟩
    · exact forwarded
    · exact withholds.forwarded other found before

theorem turn {channel : ChannelId} {client : Client}
    {server : ServerState hasher} {connection : Connection}
    {stage : DispatchStage}
    (turned : client.connection.Turn (config.ofChannel channel) pool.server
      client.stage server connection stage) : server.Withholds := by
  have kept := withholds.server
  generalize client.stage = before at turned
  cases turned with
  | settle => exact kept
  | hangUp => exact kept.update (by simp) _
  | check => exact kept
  | announce => exact kept
  | finish moment rawCmd cmd => exact kept.finish _ moment _ rawCmd cmd
  | transfer => exact kept
  | register => exact kept.of_same rfl rfl rfl

/-- No action of the connections passes anything on. -/
theorem step {action : PoolAction}
    (unheard : ∀ rawResp, action ≠ .propagate rawResp)
    (taken : pool.step config action = some next) : next.Withholds := by
  have kept := withholds.server
  cases transition_of_step taken with
  | accept => exact withholds.update (kept.update (by simp) _) rfl
  | hangUp _ found =>
      have before := withholds.forwarded _ _ found
      exact withholds.update (kept.update (by simp) _) before
  | fill found =>
      have before := withholds.forwarded _ _ found
      exact withholds.update kept before
  | forward _ _ _ queued =>
      have empty := kept.queues _ _ queued
      cases empty
  | @turn channel moment client server connection stage found _ turned =>
      have before := withholds.forwarded _ _ found
      have nothing : propagation config pool.server client = [] := by
        rw [propagation]
        split
        next => exact kept.propagation_nil ..
        next => rfl
      have updated : (pool.update server channel
          { client with
            connection := connection
            stage := stage
            registered := pool.noted client }).Withholds :=
        withholds.update (withholds.turn turned) before
      refine ⟨updated.server, ?_, updated.forwarded⟩
      dsimp only
      rw [nothing, List.append_nil]
      exact withholds.propagated
  | propagate rawResp => exact absurd rfl (unheard rawResp)
  | purge => exact ⟨kept.of_same rfl rfl rfl, withholds.propagated,
      withholds.forwarded⟩

end ServerPool.Withholds

namespace ReplicaServer

variable {config : PoolConfig}

/-- The action is one of the server's own, whose commands alone propagate. -/
def Internal (action : ReplicaAction) : Prop :=
  ∀ rawResp, action ≠ .client (.propagate rawResp)

theorem withholds_step {system next : ReplicaServer hasher}
    {action : ReplicaAction} (withholds : system.pool.Withholds)
    (internal : Internal action)
    (taken : system.step config action = some next) :
    next.pool.Withholds := by
  have followed : ∀ {follower : Follower hasher},
      system.follower.Withholds follower →
      (system.follow follower).pool.Withholds := by
    intro follower same
    have role := same.role
    have offset := same.offset
    have channels := same.channels
    rw [system.shared] at role offset channels
    exact ⟨withholds.server.of_same role offset channels, withholds.propagated,
      withholds.forwarded⟩
  cases action with
  | client act =>
      obtain ⟨pool, acted, rfl⟩ := Option.map_eq_some_iff.mp taken
      have unheard : ∀ rawResp, act ≠ .propagate rawResp :=
        fun rawResp same => internal rawResp (congrArg ReplicaAction.client same)
      exact withholds.step unheard acted
  | send =>
      obtain ⟨follower, sent, rfl⟩ := Option.map_eq_some_iff.mp taken
      exact followed (Follower.withholds_send sent)
  | receive chunk =>
      obtain ⟨follower, received, rfl⟩ := Option.map_eq_some_iff.mp taken
      exact followed (Follower.withholds_receive received)
  | advance =>
      obtain ⟨follower, advanced, rfl⟩ := Option.map_eq_some_iff.mp taken
      exact followed (Follower.withholds_advance advanced)
  | replay moment =>
      obtain ⟨follower, replayed, rfl⟩ := Option.map_eq_some_iff.mp taken
      exact followed (Follower.withholds_replay replayed)

/-- In no run of a replica, with any clients and any stream from its master, does
a connection that has registered get a write: nothing is propagated, nothing
waits in a channel or has been written from one, and the offset that a master
would count up stays zero. -/
theorem relays_nothing {masterHost : String} {masterPort : UInt16}
    {masterauth : Option String} {myPort : UInt16} {db : Db hasher}
    {cluster : Option ClusterTopology} {actions : List ReplicaAction}
    {system : ReplicaServer hasher}
    (reaches : Reaches (step config) (fun _ action => Internal action)
      (start masterHost masterPort masterauth myPort db cluster) actions
      system) :
    system.pool.propagated = [] ∧
      system.pool.server.replState.masterReplOffset = 0 ∧
      (∀ channel queue,
        system.pool.server.channels channel = some queue → queue = []) ∧
      ∀ channel client, system.pool.clients channel = some client →
        client.forwarded = [] := by
  have withholds : system.pool.Withholds := by
    induction reaches with
    | refl =>
        exact ⟨⟨rfl, rfl, by simp [start, ServerPool.start]⟩, rfl,
          by simp [start, ServerPool.start]⟩
    | snoc _ internal taken ih => exact withholds_step ih internal taken
  exact ⟨withholds.propagated, withholds.server.offset,
    withholds.server.queues, withholds.forwarded⟩

/-- A connection registers with a replica, and then the replica executes the
command of the stream and one of another client. -/
def chainActions : List ReplicaAction :=
  followActions.dropLast ++ .client (.accept 0) ::
    clientActions ["PSYNC", "?", "-1"] ++ [.replay firstMoment,
      .client (.accept 1), .client (.read 1 (Value.wordsFrame ["DEL", "k"]).1),
      .client (.process 1 firstMoment), .client (.process 1 firstMoment)]

theorem relays_nothing_chain :
    ∃ system, Reaches (step ⟨none, 1024⟩) (fun _ action => Internal action)
        sampleReplica chainActions system ∧
      system.pool.server.replState.downstreamSenders = [0] ∧
      system.follower.executed = [.set "k" (asBytes "a") none] ∧
      system.pool.propagated = [] := by
  have ran : (runActions (step ⟨none, 1024⟩) sampleReplica chainActions).map
      (fun system => decide
        (system.pool.server.replState.downstreamSenders = [0] ∧
          system.follower.executed = [.set "k" (asBytes "a") none])) =
      some true := by
    simp only [chainActions, followActions, snapshotHeader,
      ReplicaTask.getEmptyRdbBytes_eq]
    decide +kernel
  obtain ⟨system, reached, checked⟩ := Option.map_eq_some_iff.mp ran
  obtain ⟨registered, executed⟩ := of_decide_eq_true checked
  have reaches : Reaches (step ⟨none, 1024⟩) (fun _ action => Internal action)
      sampleReplica chainActions system :=
    reaches_of_always
      (by simp [chainActions, followActions, clientActions, Internal]) reached
  exact ⟨system, reaches, registered, executed, (relays_nothing reaches).1⟩

end ReplicaServer

end RustiCache
