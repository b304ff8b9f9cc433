import RustiCache.ExactDelivery
import RustiCache.HandshakeTurns
import RustiCache.PropagationLog
import RustiCache.ReplicaReplay

/-!
# A master with its replicas

Any number of replicas attach to connections of a master.  A replica whose
earlier commands have been answered sends `PSYNC`, reads the reply and replays
the stream that follows.  Bytes travel in both directions and arrive in chunks
of any size, while the connections of the master and the other tasks of the
replica's server go on.
-/

namespace RustiCache

/-- The frame is a `PSYNC`. -/
def Command.asksPsync (value : Value) : Bool :=
  match fromValue value with
  | .ok (.psync _ _) => true
  | _ => false

theorem Command.asksPsync_of_isPsync {value : Value} (psync : IsPsync value) :
    asksPsync value = true := by
  obtain ⟨replId, offset, decoded⟩ := psync
  rw [asksPsync, decoded]

/-- A replica that reads the reply to `PSYNC`, or replays the stream. -/
inductive Follower (hasher : String → UInt64) where
  | syncing (server : ServerState hasher) (task : ReplicaTask)
  | streaming (stream : ReplicaStream hasher)

namespace Follower

variable {hasher : String → UInt64}

/-- The replica's server, whose replication state is the task's. -/
def server : Follower hasher → ServerState hasher
  | syncing server task => { server with replState := task.replState }
  | streaming stream => stream.server

/-- The task goes on with what is in its buffer.  After the snapshot comes the
stream. -/
def advance : Follower hasher → Option (Follower hasher)
  | syncing server task =>
      task.advance.map fun next =>
        if next.stage = .streaming then
          .streaming (.start { server with replState := next.replState }
            next.buffer)
        else
          .syncing server next
  | streaming _ => none

def receive (chunk : Bytes) : Follower hasher → Option (Follower hasher)
  | syncing server task => (task.receive chunk).map (.syncing server)
  | streaming stream => (stream.step (.read chunk)).map .streaming

/-- A round of the loop over the stream. -/
def replay (moment : Moment) : Follower hasher → Option (Follower hasher)
  | syncing _ _ => none
  | streaming stream => (stream.step (.process moment)).map .streaming

/-- Other tasks have acted on the replica's server. -/
def others (server : ServerState hasher) : Follower hasher → Follower hasher
  | syncing _ task =>
      .syncing server { task with replState := server.replState }
  | streaming stream => .streaming { stream with server := server }

end Follower

/-- A replica on a connection of the master, with the bytes on their way to the
master and the number of bytes that the replica has received. -/
structure Attachment (hasher : String → UInt64) where
  follower : Follower hasher
  toMaster : Bytes
  received : Nat

/-- A replica of a host sends `PSYNC`. -/
def Attachment.new {hasher : String → UInt64} (masterHost : String)
    (masterPort : UInt16) (db : Db hasher) (received : Nat) :
    Attachment hasher :=
  let replState := ReplicationState.newReplica masterHost masterPort
  { follower := .syncing ⟨db, replState, fun _ => none, none⟩
      ⟨.awaiting .psync [], [], replState, [(HandshakeCommand.psync.bytes, [])]⟩
    toMaster := HandshakeCommand.psync.bytes
    received := received }

structure ReplicatedPool (hasher replicaHasher : String → UInt64) where
  pool : ServerPool hasher
  attachments : ChannelId → Option (Attachment replicaHasher)

inductive ReplicationAction (replicaHasher : String → UInt64) where
  | master (action : PoolAction)
  | attach (channel : ChannelId) (masterHost : String) (masterPort : UInt16)
      (db : Db replicaHasher)
  | deliver (channel : ChannelId) (count : Nat)
  | receive (channel : ChannelId) (count : Nat)
  | advance (channel : ChannelId)
  | replay (channel : ChannelId) (moment : Moment)
  | others (channel : ChannelId) (server : ServerState replicaHasher)

/-- The connection on whose socket bytes arrive. -/
def PoolAction.reader : PoolAction → Option ChannelId
  | .read channel _ => some channel
  | _ => none

/-- A connection whose frames have all been answered, none of them `PSYNC`. -/
def Client.isIdle (client : Client) : Bool :=
  client.connection.phase = .waiting && client.connection.buffer = [] &&
    client.stage = .ready && client.registered = none &&
    client.connection.handled.all fun frame => !Command.asksPsync frame.2

namespace ReplicatedPool

variable {hasher replicaHasher : String → UInt64} (config : PoolConfig)

/-- Replace what is attached to a connection. -/
def put (system : ReplicatedPool hasher replicaHasher) (channel : ChannelId)
    (attachment : Attachment replicaHasher) :
    ReplicatedPool hasher replicaHasher :=
  { system with
    attachments :=
      Function.update system.attachments channel (some attachment) }

/-- The replica on a connection takes a step of its own. -/
def follow (system : ReplicatedPool hasher replicaHasher) (channel : ChannelId)
    (act : Follower replicaHasher → Option (Follower replicaHasher)) :
    Option (ReplicatedPool hasher replicaHasher) :=
  (system.attachments channel).bind fun attachment =>
    (act attachment.follower).map fun follower =>
      system.put channel { attachment with follower := follower }

/-- What has been written to the replica on a connection and not received. -/
def inFlight (client : Client) (attachment : Attachment replicaHasher) :
    Bytes :=
  client.connection.sent.drop attachment.received

def step (system : ReplicatedPool hasher replicaHasher) :
    ReplicationAction replicaHasher →
      Option (ReplicatedPool hasher replicaHasher)
  | .master action =>
      if (action.reader.bind system.attachments).isSome then
        none
      else
        (system.pool.step config action).map fun pool =>
          { system with pool := pool }
  | .attach channel masterHost masterPort db =>
      match system.pool.clients channel, system.attachments channel with
      | some client, none =>
          if client.isIdle then
            some (system.put channel (.new masterHost masterPort db
              client.connection.sent.length))
          else
            none
      | _, _ => none
  | .deliver channel count =>
      (system.attachments channel).bind fun attachment =>
        if 0 < count ∧ count ≤ attachment.toMaster.length then
          (system.pool.step config
              (.read channel (attachment.toMaster.take count))).map fun pool =>
            { system with pool := pool }.put channel
              { attachment with
                toMaster := attachment.toMaster.drop count }
        else
          none
  | .receive channel count =>
      (system.pool.clients channel).bind fun client =>
        (system.attachments channel).bind fun attachment =>
          if 0 < count ∧ count ≤ (inFlight client attachment).length then
            (attachment.follower.receive
                ((inFlight client attachment).take count)).map fun follower =>
              system.put channel
                { attachment with
                  follower := follower
                  received := attachment.received + count }
          else
            none
  | .advance channel => system.follow channel Follower.advance
  | .replay channel moment => system.follow channel (Follower.replay moment)
  | .others channel server =>
      system.follow channel fun follower => some (follower.others server)

/-- A step that a replica takes by itself. -/
inductive FollowerMove (channel : ChannelId)
    (follower : Follower replicaHasher) :
    ReplicationAction replicaHasher → Follower replicaHasher → Prop where
  | advances {next : Follower replicaHasher}
      (advanced : follower.advance = some next) :
      FollowerMove channel follower (.advance channel) next
  | replays {moment : Moment} {next : Follower replicaHasher}
      (replayed : follower.replay moment = some next) :
      FollowerMove channel follower (.replay channel moment) next
  | others (server : ServerState replicaHasher) :
      FollowerMove channel follower (.others channel server)
        (follower.others server)

/-- What a step can do, with the conditions under which it can happen. -/
inductive Transition (system : ReplicatedPool hasher replicaHasher) :
    ReplicationAction replicaHasher → ReplicatedPool hasher replicaHasher →
      Prop where
  | master {action : PoolAction} {pool : ServerPool hasher}
      (unread : ∀ channel, action.reader = some channel →
        system.attachments channel = none)
      (acted : system.pool.step config action = some pool) :
      Transition system (.master action) { system with pool := pool }
  | attach {channel : ChannelId} {client : Client} (masterHost : String)
      (masterPort : UInt16) (db : Db replicaHasher)
      (found : system.pool.clients channel = some client)
      (unattached : system.attachments channel = none)
      (idle : client.isIdle = true) :
      Transition system (.attach channel masterHost masterPort db)
        (system.put channel (.new masterHost masterPort db
          client.connection.sent.length))
  | deliver {channel : ChannelId} {count : Nat}
      {attachment : Attachment replicaHasher} {pool : ServerPool hasher}
      (attached : system.attachments channel = some attachment)
      (acted : system.pool.step config
        (.read channel (attachment.toMaster.take count)) = some pool) :
      Transition system (.deliver channel count)
        ({ system with pool := pool }.put channel
          { attachment with toMaster := attachment.toMaster.drop count })
  | receive {channel : ChannelId} {count : Nat} {client : Client}
      {attachment : Attachment replicaHasher}
      {follower : Follower replicaHasher}
      (found : system.pool.clients channel = some client)
      (attached : system.attachments channel = some attachment)
      (some : 0 < count) (enough : count ≤ (inFlight client attachment).length)
      (received : attachment.follower.receive
        ((inFlight client attachment).take count) = .some follower) :
      Transition system (.receive channel count)
        (system.put channel
          { attachment with
            follower := follower
            received := attachment.received + count })
  | follow {action : ReplicationAction replicaHasher} {channel : ChannelId}
      {attachment : Attachment replicaHasher}
      {follower : Follower replicaHasher}
      (attached : system.attachments channel = some attachment)
      (moves : FollowerMove channel attachment.follower action follower) :
      Transition system action
        (system.put channel { attachment with follower := follower })

theorem transition_of_step {system next : ReplicatedPool hasher replicaHasher}
    {action : ReplicationAction replicaHasher}
    (taken : system.step config action = some next) :
    Transition config system action next := by
  have follows {channel : ChannelId}
      {act : Follower replicaHasher → Option (Follower replicaHasher)}
      (followed : system.follow channel act = some next)
      (moves : ∀ {follower after}, act follower = some after →
        FollowerMove channel follower action after) :
      Transition config system action next := by
    obtain ⟨attachment, attached, rest⟩ := Option.bind_eq_some_iff.mp followed
    obtain ⟨follower, moved, rfl⟩ := Option.map_eq_some_iff.mp rest
    exact .follow attached (moves moved)
  cases action with
  | master action =>
      simp only [step] at taken
      split at taken
      next => cases taken
      next unread =>
        obtain ⟨pool, acted, rfl⟩ := Option.map_eq_some_iff.mp taken
        refine .master (fun channel reading => ?_) acted
        rw [reading, Option.bind_some, Option.not_isSome_iff_eq_none] at unread
        exact unread
  | attach channel masterHost masterPort db =>
      simp only [step] at taken
      split at taken
      next client found unattached =>
        split at taken
        next idle =>
          cases taken
          exact .attach masterHost masterPort db found unattached idle
        next => cases taken
      next => cases taken
  | deliver channel count =>
      obtain ⟨attachment, attached, rest⟩ := Option.bind_eq_some_iff.mp taken
      split at rest
      next =>
        obtain ⟨pool, acted, rfl⟩ := Option.map_eq_some_iff.mp rest
        exact .deliver attached acted
      next => cases rest
  | receive channel count =>
      obtain ⟨client, found, bound⟩ := Option.bind_eq_some_iff.mp taken
      obtain ⟨attachment, attached, rest⟩ := Option.bind_eq_some_iff.mp bound
      split at rest
      next counts =>
        obtain ⟨follower, received, rfl⟩ := Option.map_eq_some_iff.mp rest
        exact .receive found attached counts.1 counts.2 received
      next => cases rest
  | advance channel => exact follows taken .advances
  | replay channel moment => exact follows taken .replays
  | others channel server =>
      have followed : system.follow channel
          (fun follower => some (follower.others server)) = some next := taken
      refine follows followed fun moved => ?_
      cases moved
      exact .others server

/-- A master without connections. -/
def start (server : ServerState hasher) : ReplicatedPool hasher replicaHasher :=
  ⟨.start server, fun _ => none⟩

end ReplicatedPool

end RustiCache
