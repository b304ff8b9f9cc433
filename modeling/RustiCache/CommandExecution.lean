import RustiCache.ClusterTopology
import RustiCache.Commands
import RustiCache.ReplicationState
import RustiCache.ShardedStore

/-!
# Executing commands

A command acts on the state that all tasks of a server share: the store, the
replication state with its channels, and the cluster topology if the server is
part of a cluster.  Clock readings and table orders come from outside.
-/

namespace RustiCache

/-- The state shared by the tasks of a server. -/
structure ServerState (hasher : String → UInt64) where
  db : Db hasher
  replState : ReplicationState
  channels : Channels
  cluster : Option ClusterTopology

/-- The successive clock readings of a command and the iteration order that its
insertion leaves behind. -/
structure Moment where
  clock : Nat → Instant
  arrangement : Arrangement

/-- The outcome of executing a command. -/
structure Execution (hasher : String → UInt64) where
  reply : Option Value
  server : ServerState hasher
  isAuthenticated : Bool

namespace Command

variable {hasher : String → UInt64}

def nanosPerMilli : Nat := 1000000

/-- Pass a write on to the replicas, on a master. -/
def propagate (server : ServerState hasher) (rawCmd : Option Bytes) :
    ServerState hasher :=
  if server.replState.isReplica then
    server
  else
    match rawCmd with
    | some raw =>
        let (replState, channels) :=
          server.replState.propagateDownstream server.channels raw
        { server with replState := replState, channels := channels }
    | none => server

/-- Delete keys one after another, counting those that were stored. -/
def delKeys : List String → Db hasher → Nat × Db hasher
  | [], db => (0, db)
  | key :: others, db =>
      let (removed, next) := db.del key
      let (count, last) := delKeys others next
      (if removed then count + 1 else count, last)

/-- Look keys up one after another, counting those that are live. -/
def existsKeys (clock : Nat → Instant) :
    Nat → List String → Db hasher → Nat × Db hasher
  | _, [], db => (0, db)
  | reading, key :: others, db =>
      let (present, next) := db.exists (clock reading) key
      let (count, last) := existsKeys clock (reading + 1) others next
      (if present then count + 1 else count, last)

/-- A word as 40 hexadecimal digits. -/
def hex40 (number : UInt64) : String :=
  let digits := Nat.toDigits 16 number.toNat
  String.ofList (List.replicate (40 - digits.length) '0' ++ digits)

/-- Add slots one after another, up to the first that is refused. -/
def addSlots (id : String) :
    List UInt16 → ClusterTopology → Value × ClusterTopology
  | [], topology => (Value.ok, topology)
  | slot :: slots, topology =>
      match topology.addSlotsRange id slot slot with
      | .ok next => addSlots id slots next
      | .error reason => (Value.error reason, topology)

def executeCluster (hasher : String → UInt64) (arrangement : Arrangement)
    (topology : ClusterTopology) :
    ClusterSubcommand → Value × ClusterTopology
  | .keySlot key =>
      (Value.integer (Int64.ofNat (RustiCache.keySlot (asBytes key)).toNat),
        topology)
  | .info => (Value.string topology.formatClusterInfo, topology)
  | .nodes => (Value.string topology.formatClusterNodes, topology)
  | .slots => (topology.formatClusterSlots, topology)
  | .meet ip port =>
      let dummyId := hex40 (hasher (ip ++ ":" ++ toString port))
      let peer := ClusterNode.new dummyId ip port (port + 10000) false true
      (Value.ok, topology.addNode arrangement peer)
  | .addSlots slots =>
      match topology.myself with
      | some me => Command.addSlots me.id slots topology
      | none => (Value.ok, topology)

def executeReplConf (replState : ReplicationState) :
    List String → Option Value
  | [] => some (Value.error "ERR REPLCONF requires arguments")
  | sub :: _ =>
      if toAsciiUppercase sub = "GETACK" then
        let offset := replState.replicaBytesProcessed
        some (Value.array (some [Value.string "REPLCONF", Value.string "ACK",
          Value.string (toString offset)]))
      else if toAsciiUppercase sub = "ACK" then
        none
      else
        some Value.ok

/-- The reply to a client that has not given the password, and whether it has
now. -/
def guardAuth (pass : String) : Command → Value × Bool
  | auth _ password =>
      if password = pass then
        (Value.ok, true)
      else
        (Value.error
          "WRONGPASS invalid username-password pair or user is disabled.",
          false)
  | quit => (Value.ok, false)
  | _ => (Value.error "NOAUTH Authentication required.", false)

/-- Execution once authentication is settled. -/
def perform (moment : Moment) (server : ServerState hasher)
    (rawCmd : Option Bytes) (isAuthenticated : Bool) :
    Command → Execution hasher
  | auth _ _ => ⟨some Value.ok, server, true⟩
  | quit => ⟨some Value.ok, server, isAuthenticated⟩
  | ping (some message) =>
      ⟨some (Value.string message), server, isAuthenticated⟩
  | ping none => ⟨some Value.pong, server, isAuthenticated⟩
  | echo message => ⟨some (Value.string message), server, isAuthenticated⟩
  | get key =>
      let (found, db) := server.db.get (moment.clock 0) key
      ⟨some (Value.bulkString found), { server with db := db }, isAuthenticated⟩
  | set key value pxMs =>
      let expiresAt :=
        pxMs.map fun ms => moment.clock 0 + ms.toNat * nanosPerMilli
      let db :=
        server.db.set moment.arrangement (moment.clock 1) key value expiresAt
      ⟨some Value.ok, propagate { server with db := db } rawCmd,
        isAuthenticated⟩
  | del names =>
      let (count, db) := delKeys names server.db
      let deleted := { server with db := db }
      ⟨some (Value.integer (Int64.ofNat count)),
        if 0 < count then propagate deleted rawCmd else deleted,
        isAuthenticated⟩
  | «exists» names =>
      let (count, db) := existsKeys moment.clock 0 names server.db
      ⟨some (Value.integer (Int64.ofNat count)), { server with db := db },
        isAuthenticated⟩
  | keys _ =>
      ⟨some (Value.array
          (some ((server.db.keys (moment.clock 0)).map Value.string))),
        server, isAuthenticated⟩
  | info _ =>
      ⟨some (Value.string server.replState.infoReplication), server,
        isAuthenticated⟩
  | replConf args =>
      ⟨executeReplConf server.replState args, server, isAuthenticated⟩
  | psync _ _ =>
      ⟨some (Value.simpleString
          ("FULLRESYNC " ++ server.replState.getReplid ++ " 0")),
        server, isAuthenticated⟩
  | cluster subcommand =>
      match server.cluster with
      | some topology =>
          let (reply, next) :=
            executeCluster hasher moment.arrangement topology subcommand
          ⟨some reply, { server with cluster := some next }, isAuthenticated⟩
      | none =>
          ⟨some (Value.error "ERR This instance has cluster support disabled"),
            server, isAuthenticated⟩
  | command => ⟨some (Value.array (some [])), server, isAuthenticated⟩

def execute (moment : Moment) (server : ServerState hasher)
    (rawCmd : Option Bytes) (requirepass : Option String)
    (isAuthenticated : Bool) (cmd : Command) : Execution hasher :=
  match requirepass with
  | some pass =>
      if isAuthenticated then
        perform moment server rawCmd isAuthenticated cmd
      else
        ⟨some (guardAuth pass cmd).1, server, (guardAuth pass cmd).2⟩
  | none => perform moment server rawCmd isAuthenticated cmd

end Command

end RustiCache
