import RustiCache.ArrangedTables
import RustiCache.HashSlots
import RustiCache.RespValue

/-!
# Cluster topology

The nodes that a server knows and the owner of each hash slot.  The slot table
has one place for every slot.
-/

namespace RustiCache

structure ClusterNode where
  id : String
  ip : String
  port : UInt16
  busPort : UInt16
  isMyself : Bool
  isMaster : Bool
  slots : List (UInt16 × UInt16)
deriving DecidableEq

namespace ClusterNode

def new (id ip : String) (port busPort : UInt16) (isMyself isMaster : Bool) :
    ClusterNode :=
  ⟨id, ip, port, busPort, isMyself, isMaster, []⟩

def endpoint (node : ClusterNode) : String :=
  node.ip ++ ":" ++ toString node.port

end ClusterNode

structure ClusterTopology where
  nodes : Table String ClusterNode
  slotToNode : List (Option ClusterNode)
  myselfId : String
  slotToNode_length : slotToNode.length = 16384

namespace ClusterTopology

def new (myself : ClusterNode) : ClusterTopology where
  nodes := AList.insert myself.id myself ∅
  slotToNode := List.replicate 16384 none
  myselfId := myself.id
  slotToNode_length := List.length_replicate

def myself (topology : ClusterTopology) : Option ClusterNode :=
  AList.lookup topology.myselfId topology.nodes

def addNode (topology : ClusterTopology) (arrangement : Arrangement)
    (node : ClusterNode) : ClusterTopology :=
  { topology with
    nodes := Table.insert arrangement node.id node topology.nodes }

/-- Give the slots from `start` on, `count` of them, to a node. -/
def assign (node : ClusterNode) (start count : Nat)
    (slotToNode : List (Option ClusterNode)) : List (Option ClusterNode) :=
  (List.range' start count).foldl
    (fun owners slot => owners.set slot (some node)) slotToNode

theorem assign_length (node : ClusterNode) (start count : Nat)
    (slotToNode : List (Option ClusterNode)) :
    (assign node start count slotToNode).length = slotToNode.length := by
  rw [assign]
  induction List.range' start count generalizing slotToNode with
  | nil => rfl
  | cons slot slots ih => rw [List.foldl_cons, ih, List.length_set]

def addSlotsRange (topology : ClusterTopology) (nodeId : String)
    (start last : UInt16) : Except String ClusterTopology :=
  if last < start || hashSlots ≤ last then
    .error s!"Invalid slot range {start}-{last}"
  else
    match AList.lookup nodeId topology.nodes with
    | none => .error s!"Unknown node id {nodeId}"
    | some node =>
        .ok
          { topology with
            slotToNode :=
              assign node start.toNat (last.toNat + 1 - start.toNat)
                topology.slotToNode
            nodes :=
              AList.replace nodeId
                { node with slots := node.slots ++ [(start, last)] }
                topology.nodes
            slotToNode_length := by
              rw [assign_length, topology.slotToNode_length] }

def getNodeForSlot (topology : ClusterTopology) (slot : UInt16) :
    Option ClusterNode :=
  if slot.toNat < topology.slotToNode.length then
    topology.slotToNode.getD slot.toNat none
  else
    none

def ownsSlot (topology : ClusterTopology) (slot : UInt16) : Bool :=
  match topology.getNodeForSlot slot with
  | some owner => owner.id == topology.myselfId
  | none => false

def formatClusterInfo (topology : ClusterTopology) : String :=
  let assignedCount := topology.slotToNode.countP Option.isSome
  let state := if assignedCount = hashSlots.toNat then "ok" else "fail"
  let knownNodes := topology.nodes.entries.length
  let masters := topology.nodes.entries.countP fun row => row.2.isMaster
  s!"cluster_state:{state}\r\ncluster_slots_assigned:{assignedCount}\r\n" ++
  s!"cluster_slots_ok:{assignedCount}\r\ncluster_slots_pfail:0\r\n" ++
  s!"cluster_slots_fail:0\r\ncluster_known_nodes:{knownNodes}\r\n" ++
  s!"cluster_size:{masters}\r\ncluster_current_epoch:1\r\n" ++
  "cluster_my_epoch:1\r\ncluster_stats_messages_sent:0\r\n" ++
  "cluster_stats_messages_received:0\r\n"

def formatRange (range : UInt16 × UInt16) : String :=
  if range.1 = range.2 then
    toString range.1
  else
    toString range.1 ++ "-" ++ toString range.2

def nodeFlags (node : ClusterNode) : String :=
  if node.isMyself then
    if node.isMaster then "myself,master" else "myself,slave"
  else if node.isMaster then
    "master"
  else
    "slave"

/-- The line of one node in the reply to `CLUSTER NODES`. -/
def formatNode (node : ClusterNode) : String :=
  let flags := nodeFlags node
  let slots := " ".intercalate (node.slots.map formatRange)
  let line :=
    node.id ++ " " ++ node.ip ++ ":" ++ toString node.port ++ "@" ++
      toString node.busPort ++ " " ++ flags ++ " - 0 0 1 connected"
  (if slots.isEmpty then line else line ++ " " ++ slots) ++ "\r\n"

def formatClusterNodes (topology : ClusterTopology) : String :=
  String.join (topology.nodes.entries.map fun row => formatNode row.2)

/-- A run of slots with one owner. -/
abbrev SlotRange := UInt16 × UInt16 × ClusterNode

/-- Extend the current run by a slot, or close it and begin a new one. -/
def extendRanges (progress : List SlotRange × Option SlotRange)
    (indexed : Option ClusterNode × Nat) : List SlotRange × Option SlotRange :=
  let slot := UInt16.ofNat indexed.2
  match progress.2, indexed.1 with
  | some (start, last, node), some owner =>
      if node.id = owner.id then
        (progress.1, some (start, slot, node))
      else
        (progress.1 ++ [(start, last, node)], some (slot, slot, owner))
  | some range, none => (progress.1 ++ [range], none)
  | none, some owner => (progress.1, some (slot, slot, owner))
  | none, none => (progress.1, none)

/-- The runs of slots with one owner, in order. -/
def slotRanges (topology : ClusterTopology) : List SlotRange :=
  let last := topology.slotToNode.zipIdx.foldl extendRanges ([], none)
  last.1 ++ last.2.toList

def formatSlotRange (range : SlotRange) : Value :=
  let (start, last, node) := range
  let masterInfo :=
    Value.array (some [Value.string node.ip,
      Value.integer (Int64.ofNat node.port.toNat), Value.string node.id])
  Value.array (some [Value.integer (Int64.ofNat start.toNat),
    Value.integer (Int64.ofNat last.toNat), masterInfo])

def formatClusterSlots (topology : ClusterTopology) : Value :=
  Value.array (some (topology.slotRanges.map formatSlotRange))

end ClusterTopology

end RustiCache
