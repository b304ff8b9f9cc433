import RustiCache.CommandExecution

/-!
# The cluster configuration of a server

A server that is part of a cluster starts with a topology of one node, its own.
The node's slots are given by a list of ranges, or it has all of them.
-/

namespace RustiCache

namespace ClusterTopology

/-- A number of the slot specification. -/
def parseBound (text : String) : Except String UInt16 :=
  match u16.parse (asBytes text) with
  | .ok number => .ok (UInt16.ofNat number.toNat)
  | .error kind => .error kind.message

/-- A part of the slot specification: a range, or a single slot. -/
def parseRange (part : String) : Except String (UInt16 × UInt16) :=
  let (first, rest) := part.toList.span (· != '-')
  match rest with
  | _ :: second =>
      match parseBound (trim (String.ofList first)) with
      | .error reason => .error reason
      | .ok start =>
          match parseBound (trim (String.ofList second)) with
          | .error reason => .error reason
          | .ok last => .ok (start, last)
  | [] =>
      match parseBound part with
      | .error reason => .error reason
      | .ok single => .ok (single, single)

/-- Assign the parts of a specification one after another, up to the first that
is refused. -/
def assignParts (nodeId : String) :
    List String → ClusterTopology → Except String Unit × ClusterTopology
  | [], topology => (.ok (), topology)
  | part :: parts, topology =>
      if trim part = "" then
        assignParts nodeId parts topology
      else
        match parseRange (trim part) with
        | .error reason => (.error reason, topology)
        | .ok (start, last) =>
            match topology.addSlotsRange nodeId start last with
            | .error reason => (.error reason, topology)
            | .ok next => assignParts nodeId parts next

def parseAndAssignSlots (topology : ClusterTopology) (nodeId spec : String) :
    Except String Unit × ClusterTopology :=
  assignParts nodeId ((spec.toList.splitOn ',').map String.ofList) topology

end ClusterTopology

/-- The settings that a server's store and topology are made from. -/
structure ServerConfig where
  shardCount : Nat
  maxMemoryBytes : Nat
  clusterEnabled : Bool
  clusterNodeId : Option String
  clusterAnnounceIp : String
  clusterAnnouncePort : UInt16
  clusterAnnounceBusPort : UInt16
  clusterSlots : Option String

namespace ServerConfig

variable (hasher : String → UInt64)

/-- The id of a node that has not been given one. -/
def derivedId (ip : String) (port : UInt16) : String :=
  Command.hex40 (hasher (ip ++ ":" ++ toString port))

def nodeId (config : ServerConfig) : String :=
  config.clusterNodeId.getD
    (derivedId hasher config.clusterAnnounceIp config.clusterAnnouncePort)

/-- The node of the server itself. -/
def myself (config : ServerConfig) : ClusterNode :=
  .new (config.nodeId hasher) config.clusterAnnounceIp
    config.clusterAnnouncePort config.clusterAnnounceBusPort true true

/-- The topology that a server of a cluster starts with.  A bad specification
is reported and otherwise ignored. -/
def topology (config : ServerConfig) : ClusterTopology :=
  let topo := ClusterTopology.new (config.myself hasher)
  match config.clusterSlots with
  | some slotsSpec =>
      (topo.parseAndAssignSlots (config.nodeId hasher) slotsSpec).2
  | none =>
      match topo.addSlotsRange (config.nodeId hasher) 0 16383 with
      | .ok assigned => assigned
      | .error _ => topo

/-- The state of a new server. -/
def withServerConfig (config : ServerConfig) (replState : ReplicationState)
    (channels : Channels) : ServerState hasher where
  db := .withConfig hasher config.shardCount config.maxMemoryBytes
  replState := replState
  channels := channels
  cluster := if config.clusterEnabled then some (config.topology hasher) else none

end ServerConfig

end RustiCache
