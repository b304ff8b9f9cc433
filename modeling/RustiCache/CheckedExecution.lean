import RustiCache.CheckedCommands
import RustiCache.CommandExecution
import RustiCache.ShardedStoreContents

/-!
# Executing commands with their panics

The execution of commands once more, with every index into the shards, the
argument list, the slot table and the checksum table, and every fixed-width sum
written out.  Atomic counters wrap around and are as before.
-/

namespace RustiCache

/-- One past the last reading, in nanoseconds, of a clock that counts seconds
in a signed word. -/
def instantLimit : Nat := 2 ^ 63 * 1000000000

namespace Checked

/-- `CRC16_TAB` is indexed once per byte. -/
def crc16 (bytes : Bytes) : Checked UInt16 :=
  bytes.foldlM
    (fun crc byte => do
      let entry ← index crc16Tab (crc16Index crc byte).toNat
      return ((crc <<< 8) &&& (0xFF00 : UInt16)) ^^^ entry)
    0

def extractHashtag (key : Bytes) : Checked Bytes := do
  match key.findIdx? (· == 0x7b) with
  | some start =>
      match (← sliceFrom key (← add (2 ^ 64) start 1)).findIdx? (· == 0x7d) with
      | some last =>
          let actualEnd ← add (2 ^ 64) (← add (2 ^ 64) start 1) last
          if (← add (2 ^ 64) start 1) < actualEnd then
            slice key (← add (2 ^ 64) start 1) actualEnd
          else
            return key
      | none => return key
  | none => return key

def keySlot (key : Bytes) : Checked UInt16 := do
  return (← crc16 (← extractHashtag key)) &&& (hashSlots - 1)

end Checked

namespace Db

namespace Checked

open RustiCache.Checked

variable {hasher : String → UInt64}

def get (db : Db hasher) (now : Instant) (key : String) :
    Checked (Option Bytes × Db hasher) := do
  let _ ← index db.shards (db.shardIndex key)
  return db.get now key

def evictOne (db : Db hasher) : Checked (Option (Db hasher)) := do
  if db.maxMemoryBytes ≤ db.usedMemory.toNat then
    match db.oldestSampled with
    | some (idx, key, _) =>
        let shard ← index db.shards idx
        match AList.lookup key shard with
        | some removed =>
            return some ((db.removeEntry idx key).fetchSub
              removed.approxSizeBytes)
        | none => return none
    | none => return none
  else
    return none

def evictRounds : Nat → Db hasher → Checked (Db hasher)
  | 0, db => return db
  | rounds + 1, db => do
      match ← evictOne db with
      | some next => evictRounds rounds next
      | none => return db

def ensureMemoryCapacity (db : Db hasher) : Checked (Db hasher) :=
  evictRounds db.entryCount db

/-- The size of a new entry is a sum of machine words. -/
def newEntry (keyLen : Nat) (value : Bytes) (expiresAt : Option Instant)
    (now : Instant) : Checked Entry := do
  let approxSizeBytes ←
    add (2 ^ 64) (← add (2 ^ 64) keyLen value.length) Entry.structSize
  return ⟨value, expiresAt, now, approxSizeBytes⟩

def set (db : Db hasher) (arrangement : Arrangement) (now : Instant)
    (key : String) (value : Bytes) (expiresAt : Option Instant) :
    Checked (Db hasher) := do
  let roomy ←
    if 0 < db.maxMemoryBytes then ensureMemoryCapacity db else pure db
  let newEntry ← newEntry (asBytes key).length value expiresAt now
  let _ ← index roomy.shards (roomy.shardIndex key)
  return roomy.setEntry arrangement key newEntry

def del (db : Db hasher) (key : String) : Checked (Bool × Db hasher) := do
  let _ ← index db.shards (db.shardIndex key)
  return db.del key

def «exists» (db : Db hasher) (now : Instant) (key : String) :
    Checked (Bool × Db hasher) := do
  let (found, db) ← get db now key
  return (found.isSome, db)

end Checked

end Db

namespace ClusterTopology

namespace Checked

open RustiCache.Checked

/-- `slot_to_node[slot] = Some(node)` for the slots of a range. -/
def assign (node : ClusterNode) (start count : Nat)
    (slotToNode : List (Option ClusterNode)) :
    Checked (List (Option ClusterNode)) :=
  (List.range' start count).foldlM
    (fun owners slot => do
      let _ ← index owners slot
      return owners.set slot (some node))
    slotToNode

def addSlotsRange (topology : ClusterTopology) (nodeId : String)
    (start last : UInt16) : Checked (Except String ClusterTopology) := do
  if last < start || hashSlots ≤ last then
    return .error s!"Invalid slot range {start}-{last}"
  else
    match AList.lookup nodeId topology.nodes with
    | none => return .error s!"Unknown node id {nodeId}"
    | some node =>
        let _ ← assign node start.toNat (last.toNat + 1 - start.toNat)
          topology.slotToNode
        return topology.addSlotsRange nodeId start last

end Checked

end ClusterTopology

namespace Command

namespace Checked

open RustiCache.Checked

variable {hasher : String → UInt64}

/-- `count` is a signed word. -/
def delKeys : List String → Nat → Db hasher → Checked (Nat × Db hasher)
  | [], count, db => return (count, db)
  | key :: others, count, db => do
      let (removed, next) ← Db.Checked.del db key
      delKeys others (← if removed then add (2 ^ 63) count 1 else pure count)
        next

def existsKeys (clock : Nat → Instant) :
    Nat → List String → Nat → Db hasher → Checked (Nat × Db hasher)
  | _, [], count, db => return (count, db)
  | reading, key :: others, count, db => do
      let (present, next) ← Db.Checked.exists db (clock reading) key
      existsKeys clock (reading + 1) others
        (← if present then add (2 ^ 63) count 1 else pure count) next

def addSlots (id : String) :
    List UInt16 → ClusterTopology → Checked (Value × ClusterTopology)
  | [], topology => return (Value.ok, topology)
  | slot :: slots, topology => do
      match ← ClusterTopology.Checked.addSlotsRange topology id slot slot with
      | .ok next => addSlots id slots next
      | .error reason => return (Value.error reason, topology)

def executeCluster (hasher : String → UInt64) (arrangement : Arrangement)
    (topology : ClusterTopology) :
    ClusterSubcommand → Checked (Value × ClusterTopology)
  | .keySlot key => do
      let slot ← RustiCache.Checked.keySlot (asBytes key)
      return (Value.integer (Int64.ofNat slot.toNat), topology)
  | .info => return (Value.string topology.formatClusterInfo, topology)
  | .nodes => return (Value.string topology.formatClusterNodes, topology)
  | .slots => return (topology.formatClusterSlots, topology)
  | .meet ip port => do
      let dummyId := hex40 (hasher (ip ++ ":" ++ toString port))
      let busPort ← add (2 ^ 16) port.toNat 10000
      let peer :=
        ClusterNode.new dummyId ip port (UInt16.ofNat busPort) false true
      return (Value.ok, topology.addNode arrangement peer)
  | .addSlots slots =>
      match topology.myself with
      | some me => addSlots me.id slots topology
      | none => return (Value.ok, topology)

def executeReplConf (replState : ReplicationState) (args : List String) :
    Checked (Option Value) := do
  if args.isEmpty then
    return some (Value.error "ERR REPLCONF requires arguments")
  else
    let sub ← index args 0
    if toAsciiUppercase sub = "GETACK" then
      let offset := replState.replicaBytesProcessed
      return some (Value.array (some [Value.string "REPLCONF",
        Value.string "ACK", Value.string (toString offset)]))
    else if toAsciiUppercase sub = "ACK" then
      return none
    else
      return some Value.ok

/-- `Instant::now() + Duration::from_millis(ms)`. -/
def deadline (now : Instant) : Option UInt64 → Checked (Option Instant)
  | some ms => do
      return some (← add instantLimit now (ms.toNat * nanosPerMilli))
  | none => return none

/-- Execution once authentication is settled. -/
def perform (moment : Moment) (server : ServerState hasher)
    (rawCmd : Option Bytes) (isAuthenticated : Bool) :
    Command → Checked (Execution hasher)
  | get key => do
      let (found, db) ← Db.Checked.get server.db (moment.clock 0) key
      return ⟨some (Value.bulkString found), { server with db := db },
        isAuthenticated⟩
  | set key value pxMs => do
      let expiresAt ← deadline (moment.clock 0) pxMs
      let db ← Db.Checked.set server.db moment.arrangement (moment.clock 1) key
        value expiresAt
      return ⟨some Value.ok, propagate { server with db := db } rawCmd,
        isAuthenticated⟩
  | del names => do
      let (count, db) ← delKeys names 0 server.db
      let deleted := { server with db := db }
      return ⟨some (Value.integer (Int64.ofNat count)),
        if 0 < count then propagate deleted rawCmd else deleted,
        isAuthenticated⟩
  | «exists» names => do
      let (count, db) ← existsKeys moment.clock 0 names 0 server.db
      return ⟨some (Value.integer (Int64.ofNat count)), { server with db := db },
        isAuthenticated⟩
  | replConf args => do
      return ⟨← executeReplConf server.replState args, server, isAuthenticated⟩
  | cluster subcommand =>
      match server.cluster with
      | some topology => do
          let (reply, next) ←
            executeCluster hasher moment.arrangement topology subcommand
          return ⟨some reply, { server with cluster := some next },
            isAuthenticated⟩
      | none =>
          return ⟨some (Value.error
            "ERR This instance has cluster support disabled"), server,
            isAuthenticated⟩
  -- The other commands index nothing and add nothing.
  | cmd => return Command.perform moment server rawCmd isAuthenticated cmd

def execute (moment : Moment) (server : ServerState hasher)
    (rawCmd : Option Bytes) (requirepass : Option String)
    (isAuthenticated : Bool) (cmd : Command) : Checked (Execution hasher) :=
  match requirepass with
  | some pass =>
      if isAuthenticated then
        perform moment server rawCmd isAuthenticated cmd
      else
        return ⟨some (guardAuth pass cmd).1, server, (guardAuth pass cmd).2⟩
  | none => perform moment server rawCmd isAuthenticated cmd

/-- `Command::from_value` followed by `Command::execute`. -/
def handle (moment : Moment) (server : ServerState hasher)
    (rawCmd : Option Bytes) (requirepass : Option String)
    (isAuthenticated : Bool) (value : Value) :
    Checked (Except String (Execution hasher)) := do
  match ← fromValue value with
  | .ok cmd =>
      return .ok (← execute moment server rawCmd requirepass isAuthenticated cmd)
  | .error reason => return .error reason

end Checked

end Command

end RustiCache
