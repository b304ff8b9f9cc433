import RustiCache.CommandWrites
import RustiCache.ReplicatedPool

/-!
# The server of a replica

The task that follows the master and the connections of clients share the state
of a replica's server.  The task goes through the handshake and then executes
the commands of the stream, while clients send commands of their own.
-/

namespace RustiCache

open Command (Makes makes_nil)

namespace Follower

variable {hasher : String → UInt64} {follower next : Follower hasher}

/-- Send the next command of the handshake. -/
def send : Follower hasher → Option (Follower hasher)
  | syncing server task => task.send.map fun sent => .syncing server sent.2
  | streaming _ => none

/-- The commands of the stream that have been executed. -/
def executed : Follower hasher → List Command
  | syncing _ _ => []
  | streaming stream => stream.executed

/-- The command that the next round of the loop over the stream executes. -/
def upcoming : Follower hasher → Option Command
  | syncing _ _ => none
  | streaming stream =>
      match Value.attempt stream.buffer with
      | .complete value _ => Command.executable value
      | _ => none

theorem server_others (server : ServerState hasher)
    (follower : Follower hasher) : (follower.others server).server = server := by
  cases follower <;> rfl

theorem executed_others (server : ServerState hasher)
    (follower : Follower hasher) :
    (follower.others server).executed = follower.executed := by
  cases follower <;> rfl

/-- A step of the task that executes nothing. -/
structure Steady (follower next : Follower hasher) : Prop where
  executed : next.executed = follower.executed
  db : next.server.db = follower.server.db

theorem steady_send (sent : follower.send = some next) :
    Steady follower next := by
  cases follower with
  | syncing server task =>
      obtain ⟨after, -, rfl⟩ := Option.map_eq_some_iff.mp sent
      exact ⟨rfl, rfl⟩
  | streaming stream => cases sent

theorem steady_receive {chunk : Bytes}
    (received : follower.receive chunk = some next) : Steady follower next := by
  cases follower with
  | syncing server task =>
      obtain ⟨after, -, rfl⟩ := Option.map_eq_some_iff.mp received
      exact ⟨rfl, rfl⟩
  | streaming stream =>
      obtain ⟨after, read, rfl⟩ := Option.map_eq_some_iff.mp received
      cases ReplicaStream.transition_of_step read with
      | read chunk reading =>
          unfold ReplicaStream.receive
          split <;> exact ⟨rfl, rfl⟩

theorem steady_advance (advanced : follower.advance = some next) :
    Steady follower next := by
  cases follower with
  | syncing server task =>
      obtain ⟨after, -, rfl⟩ := Option.map_eq_some_iff.mp advanced
      split <;> exact ⟨rfl, rfl⟩
  | streaming stream => cases advanced

/-- A round of the loop over the stream executes the upcoming command. -/
theorem makes_replay (unbounded : follower.server.db.maxMemoryBytes = 0)
    (lasting : follower.server.db.contents.Lasting)
    (unexpiring : ∀ cmd ∈ follower.upcoming, cmd.Unexpiring) {moment : Moment}
    (replayed : follower.replay moment = some next) :
    next.executed = follower.executed ++ follower.upcoming.toList ∧
      Makes (follower.upcoming.toList.flatMap Command.writes)
        follower.server.db next.server.db := by
  cases follower with
  | syncing server task => cases replayed
  | streaming stream =>
      obtain ⟨after, round, rfl⟩ := Option.map_eq_some_iff.mp replayed
      cases ReplicaStream.transition_of_step round with
      | process moment draining =>
          have idle : Makes [] stream.server.db stream.server.db :=
            makes_nil lasting rfl rfl
          simp only [upcoming] at unexpiring ⊢
          unfold ReplicaStream.drain
          cases found : Value.attempt stream.buffer with
          | incomplete =>
              rw [ite_self]
              exact ⟨(List.append_nil _).symm, idle⟩
          | malformed fault =>
              have filled : stream.buffer ≠ [] :=
                Value.ne_nil_of_attempt (by simp [found])
              rw [if_neg filled]
              cases fault <;> exact ⟨(List.append_nil _).symm, idle⟩
          | complete value consumed =>
              have filled : stream.buffer ≠ [] :=
                Value.ne_nil_of_attempt (by simp [found])
              rw [found] at unexpiring
              rw [if_neg filled]
              dsimp only
              rw [ReplicaStream.absorb_eq]
              refine ⟨rfl, ?_⟩
              simp only [server, Command.replay]
              cases executable : Command.executable value with
              | none => exact idle
              | some cmd =>
                  rw [Option.toList_some, List.flatMap_singleton]
                  exact Command.apply_makes unbounded lasting
                    (unexpiring cmd executable) moment

end Follower

/-- The command that the next step of a connection executes: one that has been
checked, unless the password is missing. -/
def Client.upcoming (requirepass : Option String) (client : Client) :
    Option Command :=
  match client.stage with
  | .checked _ cmd =>
      if requirepass.isSome && !client.connection.isAuthenticated then none
      else some cmd
  | _ => none

namespace ServerPool

variable {hasher : String → UInt64} (config : PoolConfig)

/-- The command that an action of the connections executes. -/
def upcoming (pool : ServerPool hasher) : PoolAction → Option Command
  | .process channel _ =>
      (pool.clients channel).bind (Client.upcoming config.requirepass)
  | _ => none

variable {config} {pool next : ServerPool hasher} {action : PoolAction}

section Writes

variable (unbounded : pool.server.db.maxMemoryBytes = 0)
  (lasting : pool.server.db.contents.Lasting)

include unbounded lasting

theorem makes_turn {channel : ChannelId} {client : Client}
    {server : ServerState hasher} {connection : Connection}
    {stage : DispatchStage}
    (unexpiring : ∀ cmd ∈ client.upcoming config.requirepass, cmd.Unexpiring)
    (turned : client.connection.Turn (config.ofChannel channel) pool.server
      client.stage server connection stage) :
    Makes ((client.upcoming config.requirepass).toList.flatMap Command.writes)
      pool.server.db server.db := by
  have idle : Makes [] pool.server.db pool.server.db := makes_nil lasting rfl rfl
  unfold Client.upcoming at unexpiring ⊢
  generalize client.stage = before at turned unexpiring ⊢
  cases turned with
  | finish moment rawCmd cmd =>
      simp only [Connection.finish, PoolConfig.ofChannel] at unexpiring ⊢
      cases barred : config.requirepass.isSome &&
          !client.connection.isAuthenticated with
      | true =>
          rw [(Command.execute_of_barred moment pool.server rawCmd barred cmd).1]
          exact idle
      | false =>
          rw [barred, if_neg Bool.false_ne_true] at unexpiring
          rw [Command.execute_of_allowed moment pool.server _ barred,
            if_neg Bool.false_ne_true, Option.toList_some,
            List.flatMap_singleton]
          exact Command.perform_makes unbounded lasting (unexpiring cmd rfl)
            moment _ _
  | _ => exact idle

/-- An action of the connections makes the writes of the command it executes. -/
theorem makes_step
    (unexpiring : ∀ cmd ∈ pool.upcoming config action, cmd.Unexpiring)
    (taken : pool.step config action = some next) :
    Makes ((pool.upcoming config action).toList.flatMap Command.writes)
      pool.server.db next.server.db := by
  have idle : Makes [] pool.server.db pool.server.db := makes_nil lasting rfl rfl
  cases action with
  | process channel moment =>
      obtain ⟨client, found, acted⟩ := Option.bind_eq_some_iff.mp taken
      obtain ⟨draining, acted⟩ := Option.ite_none_right_eq_some.mp acted
      cases acted
      simp only [upcoming, found, Option.bind_some] at unexpiring ⊢
      exact makes_turn unbounded lasting unexpiring (Connection.turn_cases
        (config.ofChannel channel) moment pool.server draining client.stage)
  | purge now samplePerShard =>
      cases taken
      have contents := (pool.server.db.contents_purgeExpiredSample now
        samplePerShard).eq_of_lasting lasting
      exact makes_nil lasting contents (pool.server.db.maxMemoryBytes_call
        ⟨.purgeExpiredSample samplePerShard, now, .front⟩)
  | _ => cases transition_of_step taken <;> exact idle

end Writes

end ServerPool

/-- The connections of a replica's server and the task that follows the master,
with one state of the server. -/
structure ReplicaServer (hasher : String → UInt64) where
  pool : ServerPool hasher
  follower : Follower hasher
  shared : follower.server = pool.server

inductive ReplicaAction where
  | client (action : PoolAction)
  | send
  | receive (chunk : Bytes)
  | advance
  | replay (moment : Moment)

namespace ReplicaServer

variable {hasher : String → UInt64} (config : PoolConfig)

/-- A replica of a host that has just connected to it. -/
def start (masterHost : String) (masterPort : UInt16)
    (masterauth : Option String) (myPort : UInt16) (db : Db hasher)
    (cluster : Option ClusterTopology) : ReplicaServer hasher :=
  let replState := ReplicationState.newReplica masterHost masterPort
  let server := ⟨db, replState, fun _ => none, cluster⟩
  { pool := .start server
    follower := .syncing server (.start masterauth myPort replState)
    shared := rfl }

/-- The state after a step of the task. -/
def follow (system : ReplicaServer hasher) (follower : Follower hasher) :
    ReplicaServer hasher where
  pool := { system.pool with server := follower.server }
  follower := follower
  shared := rfl

/-- The state after a step of the connections. -/
def serve (system : ReplicaServer hasher) (pool : ServerPool hasher) :
    ReplicaServer hasher where
  pool := pool
  follower := system.follower.others pool.server
  shared := Follower.server_others pool.server system.follower

def step (system : ReplicaServer hasher) :
    ReplicaAction → Option (ReplicaServer hasher)
  | .client action => (system.pool.step config action).map system.serve
  | .send => system.follower.send.map system.follow
  | .receive chunk => (system.follower.receive chunk).map system.follow
  | .advance => system.follower.advance.map system.follow
  | .replay moment => (system.follower.replay moment).map system.follow

/-- The command that an action executes. -/
def upcoming (system : ReplicaServer hasher) : ReplicaAction → Option Command
  | .client action => system.pool.upcoming config action
  | .replay _ => system.follower.upcoming
  | _ => none

/-- What the server stores. -/
def keyspace (system : ReplicaServer hasher) : TimedMap String Bytes Instant :=
  system.pool.server.db.contents

end ReplicaServer

end RustiCache
