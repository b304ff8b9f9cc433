import RustiCache.ClientConnection
import RustiCache.ReplicaHandshake

/-!
# A replica and its master

The replica's task runs against a connection of the master.  Bytes travel in
both directions and arrive in chunks of any size, while other tasks of the
master act on its state and propagate byte strings to its replicas.
-/

namespace RustiCache

/-- The master's connection, the replica's task and the bytes between them, with
the bytes that the master has written for each frame it has handled and what has
been propagated since the connection was registered. -/
structure ReplicationLink (hasher : String → UInt64) where
  master : Session hasher
  replica : ReplicaTask
  toMaster : Bytes
  received : Nat
  answers : List (Bytes × Bytes)
  propagated : List Bytes

inductive LinkAction (hasher : String → UInt64) where
  | send
  | advance
  | receive (count : Nat)
  | deliver (count : Nat)
  | process (moment : Moment)
  | replicate
  | propagate (rawResp : Bytes)
  | others (server : ServerState hasher)

namespace ReplicationLink

variable {hasher : String → UInt64} (config : ConnectionConfig)

/-- What the master has written and the replica has not read. -/
def inFlight (link : ReplicationLink hasher) : Bytes :=
  link.master.connection.sent.drop link.received

/-- What waits in the connection's channel. -/
def queued (link : ReplicationLink hasher) : Bytes :=
  ((link.master.server.channels config.channel).getD []).flatten

/-- The master hands a byte string to its replicas. -/
def propagateDownstream (server : ServerState hasher) (rawResp : Bytes) :
    ServerState hasher :=
  let (replState, channels) :=
    server.replState.propagateDownstream server.channels rawResp
  { server with replState := replState, channels := channels }

/-- After a round of the master, what it has written is logged with the frames
that it has handled. -/
def logAnswers (link : ReplicationLink hasher) (master : Session hasher) :
    ReplicationLink hasher :=
  { link with
    master := master
    answers := link.answers ++
      (master.connection.handled.drop
        link.master.connection.handled.length).map fun frame =>
          (frame.1, master.connection.sent.drop
            link.master.connection.sent.length) }

def step (link : ReplicationLink hasher) :
    LinkAction hasher → Option (ReplicationLink hasher)
  | .send =>
      link.replica.send.map fun (bytes, replica) =>
        { link with replica := replica, toMaster := link.toMaster ++ bytes }
  | .advance =>
      link.replica.advance.map fun replica => { link with replica := replica }
  | .receive count =>
      if 0 < count ∧ count ≤ link.inFlight.length then
        (link.replica.receive (link.inFlight.take count)).map fun replica =>
          { link with replica := replica, received := link.received + count }
      else
        none
  | .deliver count =>
      if 0 < count ∧ count ≤ link.toMaster.length then
        (link.master.step config (.read (link.toMaster.take count))).map
          fun master =>
            { link with master := master, toMaster := link.toMaster.drop count }
      else
        none
  | .process moment =>
      (link.master.step config (.process moment)).map link.logAnswers
  | .replicate =>
      (link.master.step config .replicate).map fun master =>
        { link with master := master }
  | .propagate rawResp =>
      (link.master.step config
          (.others (propagateDownstream link.master.server rawResp))).map
        fun master =>
          { link with
            master := master
            propagated :=
              if link.master.connection.isDownstreamReplica then
                link.propagated ++ [rawResp]
              else
                link.propagated }
  | .others server =>
      (link.master.step config (.others server)).map fun master =>
        { link with master := master }

/-- The replica has just connected to the master. -/
def start (masterauth : Option String) (myPort : UInt16)
    (server : ServerState hasher) (replState : ReplicationState) :
    ReplicationLink hasher where
  master := Session.start config server
  replica := ReplicaTask.start masterauth myPort replState
  toMaster := []
  received := 0
  answers := []
  propagated := []

/-- Other tasks leave the master's replication id and the connection's channel
alone, except by propagating. -/
def Respects (link : ReplicationLink hasher) : LinkAction hasher → Prop
  | .others server =>
      server.replState.masterReplid =
          link.master.server.replState.masterReplid ∧
        server.channels config.channel =
          link.master.server.channels config.channel ∧
        server.replState.downstreamSenders.count config.channel =
          link.master.server.replState.downstreamSenders.count config.channel
  | _ => True

end ReplicationLink

end RustiCache
