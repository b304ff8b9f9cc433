import RustiCache.ActionRuns
import RustiCache.HandshakeReaders
import RustiCache.RespLocality

/-!
# All connections of a server

Any number of connections share the state of a server.  Handling a frame takes a
connection several steps if others can act in between: a command is checked for
redirection and then executed, and `PSYNC` writes its line, then the snapshot,
and then registers the connection.  A log keeps what has been propagated, and
each connection what it has been sent of that.

Commands are executed one at a time: all operations of a command on the store and
its propagation are one step, and so is a round of the purge.
-/

namespace RustiCache

/-- Where the handling of a frame stands. -/
inductive DispatchStage where
  | ready
  | checked (rawCmd : Bytes) (cmd : Command)
  | announced
  | transferred
deriving DecidableEq

/-- A connection, with the length of the log at its first registration and the
byte strings it has written from its channel. -/
structure Client where
  connection : Connection
  stage : DispatchStage
  registered : Option Nat
  forwarded : List Bytes

structure ServerPool (hasher : String → UInt64) where
  server : ServerState hasher
  clients : ChannelId → Option Client
  propagated : List Bytes

/-- The settings that all connections share. -/
structure PoolConfig where
  requirepass : Option String
  maxPayloadSize : Nat

def PoolConfig.ofChannel (config : PoolConfig) (channel : ChannelId) :
    ConnectionConfig :=
  ⟨config.requirepass, config.maxPayloadSize, channel⟩

inductive PoolAction where
  | accept (channel : ChannelId)
  | shutdown (channel : ChannelId)
  | disconnect (channel : ChannelId)
  | replicate (channel : ChannelId)
  | read (channel : ChannelId) (chunk : Bytes)
  | process (channel : ChannelId) (moment : Moment)
  | propagate (rawResp : Bytes)
  | purge (now : Instant) (samplePerShard : Nat)

namespace Command

variable {hasher : String → UInt64}

/-- What the execution of a command passes to the replicas. -/
def propagation (server : ServerState hasher) (rawCmd : Bytes)
    (requirepass : Option String) (isAuthenticated : Bool) :
    Command → List Bytes
  | set _ _ _ =>
      if (requirepass.isSome && !isAuthenticated) ||
          server.replState.isReplica then
        []
      else
        [rawCmd]
  | del names =>
      if (requirepass.isSome && !isAuthenticated) ||
          server.replState.isReplica || (delKeys names server.db).1 == 0 then
        []
      else
        [rawCmd]
  | _ => []

/-- Pass byte strings to the replicas one after another. -/
def propagateAll (server : ServerState hasher) (raws : List Bytes) :
    ReplicationState × Channels :=
  raws.foldl (fun state raw => state.1.propagateDownstream state.2 raw)
    (server.replState, server.channels)

theorem propagate_eq (server : ServerState hasher) (rawCmd : Bytes) :
    propagate server (some rawCmd) =
      let raws := if server.replState.isReplica then [] else [rawCmd]
      { server with
        replState := (propagateAll server raws).1
        channels := (propagateAll server raws).2 } := by
  rw [propagate]
  cases server.replState.isReplica <;> rfl

/-- A client that has the password, or needs none, is served. -/
theorem execute_of_allowed (moment : Moment) (server : ServerState hasher)
    (rawCmd : Option Bytes) {requirepass : Option String}
    {isAuthenticated : Bool}
    (allowed : (requirepass.isSome && !isAuthenticated) = false)
    (cmd : Command) :
    cmd.execute moment server rawCmd requirepass isAuthenticated =
      cmd.perform moment server rawCmd isAuthenticated := by
  cases requirepass with
  | none => rfl
  | some pass =>
      cases isAuthenticated with
      | true => rfl
      | false => cases allowed

/-- A client that lacks the password changes nothing of the server. -/
theorem execute_of_barred (moment : Moment) (server : ServerState hasher)
    (rawCmd : Bytes) {requirepass : Option String} {isAuthenticated : Bool}
    (barred : (requirepass.isSome && !isAuthenticated) = true)
    (cmd : Command) :
    (cmd.execute moment server (some rawCmd) requirepass
        isAuthenticated).server = server ∧
      cmd.propagation server rawCmd requirepass isAuthenticated = [] := by
  constructor
  · obtain ⟨guarded, outside⟩ := Bool.and_eq_true_iff.mp barred
    obtain ⟨pass, rfl⟩ := Option.isSome_iff_exists.mp guarded
    rw [Bool.not_eq_true'] at outside
    subst outside
    rfl
  · cases cmd <;> simp [propagation, barred]

/-- The replication state and the channels change by what is propagated. -/
theorem execute_propagation (moment : Moment) (server : ServerState hasher)
    (rawCmd : Bytes) (requirepass : Option String) (isAuthenticated : Bool)
    (cmd : Command) :
    let executed := cmd.execute moment server (some rawCmd) requirepass
      isAuthenticated
    (executed.server.replState, executed.server.channels) =
      propagateAll server
        (cmd.propagation server rawCmd requirepass isAuthenticated) := by
  have performed : ∀ free : (requirepass.isSome && !isAuthenticated) = false,
      ((cmd.perform moment server (some rawCmd) isAuthenticated).server.replState,
        (cmd.perform moment server (some rawCmd)
          isAuthenticated).server.channels) =
        propagateAll server
          (cmd.propagation server rawCmd requirepass isAuthenticated) := by
    intro free
    cases cmd with
    | ping message => cases message <;> rfl
    | set key value pxMs =>
        simp only [perform, propagation, propagate_eq, free, Bool.false_or]
        cases server.replState.isReplica <;> rfl
    | del names =>
        simp only [perform, propagation, propagate_eq, free, Bool.false_or]
        cases none : (delKeys names server.db).1 == 0 with
        | true =>
            rw [beq_iff_eq] at none
            simp only [none, Nat.lt_irrefl, if_false, Bool.or_true, if_true]
            rfl
        | false =>
            have some : 0 < (delKeys names server.db).1 := by
              rw [beq_eq_false_iff_ne] at none
              omega
            simp only [some, if_true, Bool.or_false]
            cases server.replState.isReplica <;> rfl
    | cluster subcommand =>
        simp only [perform, propagation]
        cases server.cluster <;> rfl
    | _ => rfl
  intro executed
  cases barred : requirepass.isSome && !isAuthenticated with
  | false =>
      simp only [executed, execute_of_allowed moment server _ barred]
      exact performed barred
  | true =>
      obtain ⟨unchanged, nothing⟩ :=
        execute_of_barred moment server rawCmd barred cmd
      simp only [executed, unchanged, nothing]
      rfl

end Command

namespace Connection

variable {hasher : String → UInt64} (config : ConnectionConfig)

/-- The first step of a round of the drain loop. -/
def begin (moment : Moment) (server : ServerState hasher)
    (connection : Connection) : Session hasher × DispatchStage :=
  match Value.attempt connection.buffer with
  | .complete value consumed =>
      let rawCmd := connection.buffer.take consumed
      let cut := { connection with
        buffer := connection.buffer.drop consumed
        handled := connection.handled ++ [(rawCmd, value)] }
      match Command.fromValue value with
      | .ok (.psync _ _) =>
          (⟨server, cut.write (resyncLine server.replState.getReplid)⟩,
            .announced)
      | .ok .quit => (dispatch config moment server cut rawCmd value, .ready)
      | .ok cmd =>
          match redirect server.cluster cut.isAuthenticated cmd with
          | some reply => (⟨server, cut.write reply⟩, .ready)
          | none => (⟨server, cut⟩, .checked rawCmd cmd)
      | .error _ => (dispatch config moment server cut rawCmd value, .ready)
  | _ => (drain config moment server connection, .ready)

/-- Execute a command that has passed the check, and propagate it, in one step. -/
def finish (moment : Moment) (server : ServerState hasher)
    (connection : Connection) (rawCmd : Bytes) (cmd : Command) :
    Session hasher :=
  let executed := cmd.execute moment server (some rawCmd) config.requirepass
    connection.isAuthenticated
  ⟨executed.server,
    { connection with
      isAuthenticated := executed.isAuthenticated
      sent := connection.sent ++
        (executed.reply.map Value.serialize).getD [] }⟩

/-- The next step of a connection that is draining its buffer. -/
def turn (moment : Moment) (server : ServerState hasher)
    (connection : Connection) : DispatchStage → Session hasher × DispatchStage
  | .ready => begin config moment server connection
  | .checked rawCmd cmd =>
      (finish config moment server connection rawCmd cmd, .ready)
  | .announced =>
      (⟨server, connection.write (snapshotHeader ++ getEmptyRdbBytes)⟩,
        .transferred)
  | .transferred =>
      (⟨{ server with
          replState := server.replState.registerDownstream config.channel },
        { connection with isDownstreamReplica := true }⟩, .ready)

end Connection

namespace ServerPool

variable {hasher : String → UInt64} (config : PoolConfig)

/-- What the next step of a connection passes to the replicas. -/
def propagation (server : ServerState hasher) (client : Client) : List Bytes :=
  match client.stage with
  | .checked rawCmd cmd =>
      cmd.propagation server rawCmd config.requirepass
        client.connection.isAuthenticated
  | _ => []

/-- The state after a connection has acted. -/
def put (pool : ServerPool hasher) (channel : ChannelId) (client : Client)
    (session : Session hasher) : ServerPool hasher :=
  { pool with
    server := session.server
    clients := Function.update pool.clients channel
      (some { client with connection := session.connection }) }

/-- The first registration is noted. -/
def noted (pool : ServerPool hasher) (client : Client) : Option Nat :=
  match client.stage, client.registered with
  | .transferred, none => some pool.propagated.length
  | _, registered => registered

def step (pool : ServerPool hasher) : PoolAction → Option (ServerPool hasher)
  | .accept channel =>
      match pool.clients channel with
      | some _ => none
      | none =>
          some { pool with
            server := { pool.server with
              channels :=
                Function.update pool.server.channels channel (some []) }
            clients := Function.update pool.clients channel
              (some ⟨Connection.new (config.ofChannel channel), .ready, none,
                []⟩) }
  | .shutdown channel =>
      (pool.clients channel).bind fun client =>
        if client.connection.phase = .waiting then
          some (pool.put channel client
            (client.connection.close (config.ofChannel channel) pool.server))
        else
          none
  | .disconnect channel =>
      (pool.clients channel).bind fun client =>
        if client.connection.phase = .closed then
          none
        else
          some (pool.put channel client
            (client.connection.close (config.ofChannel channel) pool.server))
  | .replicate channel =>
      (pool.clients channel).bind fun client =>
        if client.connection.phase = .waiting then
          (client.connection.forward (config.ofChannel channel)
              pool.server).map fun session =>
            pool.put channel
              { client with
                forwarded := client.forwarded ++
                  (((pool.server.channels channel).getD []).take 1) }
              session
        else
          none
  | .read channel chunk =>
      (pool.clients channel).bind fun client =>
        if client.connection.phase = .waiting then
          some (pool.put channel client (client.connection.receive
            (config.ofChannel channel) pool.server chunk))
        else
          none
  | .process channel moment =>
      (pool.clients channel).bind fun client =>
        if client.connection.phase = .draining then
          let (session, stage) := client.connection.turn
            (config.ofChannel channel) moment pool.server client.stage
          some { pool.put channel
              { client with stage := stage, registered := pool.noted client }
              session with
            propagated :=
              pool.propagated ++ propagation config pool.server client }
        else
          none
  | .propagate rawResp =>
      let (replState, channels) :=
        pool.server.replState.propagateDownstream pool.server.channels rawResp
      some { pool with
        server := { pool.server with
          replState := replState
          channels := channels }
        propagated := pool.propagated ++ [rawResp] }
  | .purge now samplePerShard =>
      some { pool with
        server := { pool.server with
          db := (pool.server.db.purgeExpiredSample now samplePerShard).2 } }

/-- A server without connections. -/
def start (server : ServerState hasher) : ServerPool hasher :=
  ⟨server, fun _ => none, []⟩

end ServerPool

end RustiCache
