import RustiCache.CommandExecution
import RustiCache.RespDecoder

/-!
# A client connection

The task of a connection alternates between waiting and draining.  It waits for
bytes from the client, for bytes to replicate if the client has asked for them,
and for the end of the connection.  It then drains its buffer frame by frame.
Each frame is one step, and other tasks of the server act between the steps.
-/

namespace RustiCache

/-- The arguments of the connection's task. -/
structure ConnectionConfig where
  requirepass : Option String
  maxPayloadSize : Nat
  channel : ChannelId
deriving DecidableEq

inductive ConnectionPhase where
  | waiting
  | draining
  | closed
deriving DecidableEq

/-- The state of the connection's task, with all it has written so far and the
frames it has handled. -/
structure Connection where
  buffer : Bytes
  isAuthenticated : Bool
  isDownstreamReplica : Bool
  phase : ConnectionPhase
  sent : Bytes
  handled : List (Bytes × Value)

/-- A connection next to the state it shares with other tasks. -/
structure Session (hasher : String → UInt64) where
  server : ServerState hasher
  connection : Connection

/-- What happens next: at the socket, at the channel, in the drain loop, or in
another task of the server. -/
inductive SessionEvent (hasher : String → UInt64) where
  | shutdown
  | disconnect
  | replicate
  | read (chunk : Bytes)
  | process (moment : Moment)
  | others (server : ServerState hasher)

namespace Connection

variable {hasher : String → UInt64}

/-- A new connection. -/
def new (config : ConnectionConfig) : Connection where
  buffer := []
  isAuthenticated := config.requirepass.isNone
  isDownstreamReplica := false
  phase := .waiting
  sent := []
  handled := []

def write (connection : Connection) (bytes : Bytes) : Connection :=
  { connection with sent := connection.sent ++ bytes }

/-- The reply to `PSYNC`: the resynchronization line and an empty snapshot. -/
def fullResync (replState : ReplicationState) : Bytes :=
  asBytes ("+FULLRESYNC " ++ replState.getReplid ++ " 0\r\n") ++
    (asBytes "$" ++ decimal getEmptyRdbBytes.length ++ Value.crlf) ++
    getEmptyRdbBytes

/-- The redirection for a key that another node of the cluster serves. -/
def redirect (cluster : Option ClusterTopology) (isAuthenticated : Bool)
    (cmd : Command) : Option Bytes :=
  match cluster, cmd.targetKey with
  | some topology, some key =>
      if isAuthenticated then
        let slot := keySlot (asBytes key)
        if topology.ownsSlot slot then
          none
        else
          match topology.getNodeForSlot slot with
          | some owner =>
              some (asBytes ("-MOVED " ++ toString slot ++ " " ++
                owner.endpoint ++ "\r\n"))
          | none => some (asBytes "-CLUSTERDOWN The cluster is down\r\n")
      else
        none
  | _, _ => none

/-- Serve a command other than `PSYNC` and `QUIT`. -/
def serve (config : ConnectionConfig) (moment : Moment)
    (server : ServerState hasher) (connection : Connection) (rawCmd : Bytes)
    (cmd : Command) : Session hasher :=
  match redirect server.cluster connection.isAuthenticated cmd with
  | some reply => ⟨server, connection.write reply⟩
  | none =>
      let executed := cmd.execute moment server (some rawCmd)
        config.requirepass connection.isAuthenticated
      ⟨executed.server,
        { connection with
          isAuthenticated := executed.isAuthenticated
          sent := connection.sent ++
            (executed.reply.map Value.serialize).getD [] }⟩

/-- Handle a frame that has been cut off the buffer. -/
def dispatch (config : ConnectionConfig) (moment : Moment)
    (server : ServerState hasher) (connection : Connection) (rawCmd : Bytes)
    (value : Value) : Session hasher :=
  match Command.fromValue value with
  | .ok (.psync _ _) =>
      ⟨{ server with
          replState := server.replState.registerDownstream config.channel },
        { connection.write (fullResync server.replState) with
          isDownstreamReplica := true }⟩
  | .ok .quit =>
      ⟨{ server with
          channels := Function.update server.channels config.channel none },
        { connection.write Value.ok.serialize with phase := .closed }⟩
  | .ok cmd => serve config moment server connection rawCmd cmd
  | .error reason =>
      ⟨server, connection.write (Value.error reason).serialize⟩

/-- The end of the task drops the receiving end of its channel. -/
def close (config : ConnectionConfig) (server : ServerState hasher)
    (connection : Connection) : Session hasher :=
  ⟨{ server with
      channels := Function.update server.channels config.channel none },
    { connection with phase := .closed }⟩

/-- One round of the drain loop. -/
def drain (config : ConnectionConfig) (moment : Moment)
    (server : ServerState hasher) (connection : Connection) : Session hasher :=
  if connection.buffer = [] then
    ⟨server, { connection with phase := .waiting }⟩
  else
    match Value.attempt connection.buffer with
    | .complete value consumed =>
        let rawCmd := connection.buffer.take consumed
        dispatch config moment server
          { connection with
            buffer := connection.buffer.drop consumed
            handled := connection.handled ++ [(rawCmd, value)] }
          rawCmd value
    | .incomplete => ⟨server, { connection with phase := .waiting }⟩
    | .malformed (.parseError reason) =>
        ⟨server,
          { connection.write
              (Value.error ("ERR protocol error: " ++
                reason.message)).serialize with
            buffer := []
            phase := .waiting }⟩
    | .malformed .panic => close config server connection

/-- Bytes arrive from the client, or the end of its stream. -/
def receive (config : ConnectionConfig) (server : ServerState hasher)
    (connection : Connection) (chunk : Bytes) : Session hasher :=
  if chunk = [] then
    close config server connection
  else
    let filled := { connection with buffer := connection.buffer ++ chunk }
    if config.maxPayloadSize < filled.buffer.length then
      close config server
        (filled.write (Value.error "ERR max payload size exceeded").serialize)
    else
      ⟨server, { filled with phase := .draining }⟩

/-- Bytes to replicate arrive on the connection's channel. -/
def forward (config : ConnectionConfig) (server : ServerState hasher)
    (connection : Connection) : Option (Session hasher) :=
  if connection.isDownstreamReplica then
    match server.channels config.channel with
    | some (replicatedBytes :: queue) =>
        some ⟨{ server with
            channels :=
              Function.update server.channels config.channel (some queue) },
          { connection.write replicatedBytes with phase := .draining }⟩
    | _ => none
  else
    none

end Connection

namespace Session

variable {hasher : String → UInt64}

def step (config : ConnectionConfig) (session : Session hasher) :
    SessionEvent hasher → Option (Session hasher)
  | .others server => some ⟨server, session.connection⟩
  | .disconnect =>
      if session.connection.phase = .closed then
        none
      else
        some (session.connection.close config session.server)
  | .shutdown =>
      if session.connection.phase = .waiting then
        some (session.connection.close config session.server)
      else
        none
  | .replicate =>
      if session.connection.phase = .waiting then
        session.connection.forward config session.server
      else
        none
  | .read chunk =>
      if session.connection.phase = .waiting then
        some (session.connection.receive config session.server chunk)
      else
        none
  | .process moment =>
      if session.connection.phase = .draining then
        some (session.connection.drain config moment session.server)
      else
        none

/-- What an event does, with the conditions under which it can happen. -/
inductive Transition (config : ConnectionConfig) (session : Session hasher) :
    SessionEvent hasher → Session hasher → Prop where
  | others (server : ServerState hasher) :
      Transition config session (.others server) ⟨server, session.connection⟩
  | disconnect (stillOpen : session.connection.phase ≠ .closed) :
      Transition config session .disconnect
        (session.connection.close config session.server)
  | shutdown (waiting : session.connection.phase = .waiting) :
      Transition config session .shutdown
        (session.connection.close config session.server)
  | replicate {replicatedBytes : Bytes} {queue : List Bytes}
      (waiting : session.connection.phase = .waiting)
      (downstream : session.connection.isDownstreamReplica = true)
      (queued : session.server.channels config.channel =
        some (replicatedBytes :: queue)) :
      Transition config session .replicate
        ⟨{ session.server with
            channels := Function.update session.server.channels config.channel
              (some queue) },
          { session.connection.write replicatedBytes with phase := .draining }⟩
  | read (chunk : Bytes) (waiting : session.connection.phase = .waiting) :
      Transition config session (.read chunk)
        (session.connection.receive config session.server chunk)
  | process (moment : Moment)
      (draining : session.connection.phase = .draining) :
      Transition config session (.process moment)
        (session.connection.drain config moment session.server)

theorem transition_of_step {config : ConnectionConfig}
    {session next : Session hasher} {event : SessionEvent hasher}
    (taken : session.step config event = some next) :
    Transition config session event next := by
  cases event with
  | others server =>
      cases taken
      exact .others server
  | disconnect =>
      simp only [step] at taken
      split at taken
      next => cases taken
      next stillOpen =>
        cases taken
        exact .disconnect stillOpen
  | shutdown =>
      simp only [step] at taken
      split at taken
      next waiting =>
        cases taken
        exact .shutdown waiting
      next => cases taken
  | replicate =>
      simp only [step] at taken
      split at taken
      next waiting =>
        rw [Connection.forward] at taken
        split at taken
        next downstream =>
          split at taken
          next replicatedBytes queue queued =>
            cases taken
            exact .replicate waiting downstream queued
          next => cases taken
        next => cases taken
      next => cases taken
  | read chunk =>
      simp only [step] at taken
      split at taken
      next waiting =>
        cases taken
        exact .read chunk waiting
      next => cases taken
  | process moment =>
      simp only [step] at taken
      split at taken
      next draining =>
        cases taken
        exact .process moment draining
      next => cases taken

/-- A new connection to a server. -/
def start (config : ConnectionConfig) (server : ServerState hasher) :
    Session hasher :=
  ⟨server, Connection.new config⟩

end Session

end RustiCache
