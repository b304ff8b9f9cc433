import RustiCache.SlotRepresentations
import Mathlib.Data.List.Induction

/-!
# A server's own node

The topology of a server starts with the server's own node.  `CLUSTER ADDSLOTS`
adds to the slots of that node.  `CLUSTER MEET` enters a peer under an id that is
made from the peer's address, and the id may be the server's own.
-/

namespace RustiCache

namespace ServerConfig

variable (hasher : String → UInt64)

/-- The ranges that the server's node starts with. -/
def startRanges (config : ServerConfig) : List (UInt16 × UInt16) :=
  match config.clusterSlots with
  | some spec =>
      ClusterTopology.acceptedRanges
        ((spec.toList.splitOn ',').map String.ofList)
  | none => [(0, 16383)]

theorem lookup_myself (config : ServerConfig) :
    AList.lookup (config.nodeId hasher)
        (ClusterTopology.new (config.myself hasher)).nodes =
      some (config.myself hasher) := by
  rw [ClusterTopology.lookup_new]
  exact if_pos rfl

/-- A server starts with a new topology in which it has been given its slots. -/
theorem topology_granted (config : ServerConfig) :
    ClusterTopology.Granted (ClusterTopology.new (config.myself hasher))
      (config.nodeId hasher) config.startRanges (config.topology hasher) := by
  have known : (AList.lookup (config.nodeId hasher)
      (ClusterTopology.new (config.myself hasher)).nodes).isSome = true := by
    rw [lookup_myself]
    rfl
  have keyed := ClusterTopology.keyed_new (config.myself hasher)
  rw [topology, startRanges]
  cases config.clusterSlots with
  | some spec => exact ClusterTopology.assignParts_granted _ keyed known
  | none =>
      obtain ⟨next, added, granted⟩ := ClusterTopology.addSlotsRange_of_known
        keyed (by decide : ClusterTopology.validRange 0 16383 = true) known
      dsimp only
      rw [added]
      exact granted

/-- The topology after commands of clients. -/
def topologyAfter (config : ServerConfig)
    (commands : List (Arrangement × ClusterSubcommand)) : ClusterTopology :=
  commands.foldl
    (fun topology command =>
      (Command.executeCluster hasher command.1 topology command.2).2)
    (config.topology hasher)

theorem topologyAfter_concat (config : ServerConfig)
    (commands : List (Arrangement × ClusterSubcommand))
    (command : Arrangement × ClusterSubcommand) :
    config.topologyAfter hasher (commands ++ [command]) =
      (Command.executeCluster hasher command.1
        (config.topologyAfter hasher commands) command.2).2 := by
  rw [topologyAfter, List.foldl_append]
  rfl

/-- The ranges that a command gives to the server's node. -/
def grantedRanges : ClusterSubcommand → List (UInt16 × UInt16)
  | .addSlots slots => ClusterTopology.acceptedSlots slots
  | _ => []

/-- The ranges that the server's node has been given, in order. -/
def assignedRanges (config : ServerConfig)
    (commands : List (Arrangement × ClusterSubcommand)) :
    List (UInt16 × UInt16) :=
  config.startRanges ++ commands.flatMap fun command => grantedRanges command.2

/-- The node under the server's id is the server's and has all it was given, and
it is the only one of the server. -/
def Identified (config : ServerConfig) (assigned : List (UInt16 × UInt16))
    (topology : ClusterTopology) : Prop :=
  (∃ me, topology.myself = some me ∧ me.isMyself = true ∧
    me.ip = config.clusterAnnounceIp ∧ me.port = config.clusterAnnouncePort ∧
    me.slots = assigned) ∧
  ∀ id node, AList.lookup id topology.nodes = some node →
    node.isMyself = true → id = topology.myselfId

/-- The node under the server's id is a peer. -/
def Forgotten (topology : ClusterTopology) : Prop :=
  ∃ node, topology.myself = some node ∧ node.isMyself = false

/-- A command that does not enter a peer under the server's id. -/
def MeetsOther (config : ServerConfig) : ClusterSubcommand → Prop
  | .meet ip port => derivedId hasher ip port ≠ config.nodeId hasher
  | _ => True

variable {hasher} {config : ServerConfig} {topology next : ClusterTopology}
  {assigned ranges : List (UInt16 × UInt16)}

theorem Forgotten.not_identified (forgotten : Forgotten topology) :
    ¬ config.Identified assigned topology := by
  rintro ⟨⟨me, found, own, -⟩, -⟩
  obtain ⟨node, foundNode, peer⟩ := forgotten
  rw [foundNode] at found
  cases found
  rw [peer] at own
  cases own

theorem Identified.grant (identified : config.Identified assigned topology)
    (granted : topology.Granted topology.myselfId ranges next) :
    config.Identified (assigned ++ ranges) next := by
  obtain ⟨⟨me, found, own, ip, port, slots⟩, only⟩ := identified
  rw [ClusterTopology.myself] at found
  refine ⟨⟨{ me with slots := me.slots ++ ranges }, ?_, own, ip, port, ?_⟩, ?_⟩
  · rw [ClusterTopology.myself, granted.myselfId_eq, granted.lookup_eq,
      if_pos rfl, found]
    rfl
  · rw [slots]
  · intro id node foundNode isOwn
    rw [granted.myselfId_eq]
    rw [granted.lookup_eq] at foundNode
    split at foundNode
    next same => exact same
    next => exact only id node foundNode isOwn

theorem Forgotten.grant (forgotten : Forgotten topology)
    (granted : topology.Granted topology.myselfId ranges next) :
    Forgotten next := by
  obtain ⟨node, found, peer⟩ := forgotten
  rw [ClusterTopology.myself] at found
  refine ⟨{ node with slots := node.slots ++ ranges }, ?_, peer⟩
  rw [ClusterTopology.myself, granted.myselfId_eq, granted.lookup_eq,
    if_pos rfl, found]
  rfl

theorem Identified.addNode (identified : config.Identified assigned topology)
    (arrangement : Arrangement) {node : ClusterNode}
    (other : node.id ≠ topology.myselfId) (peer : node.isMyself = false) :
    config.Identified assigned (topology.addNode arrangement node) := by
  obtain ⟨⟨me, found, properties⟩, only⟩ := identified
  refine ⟨⟨me, ?_, properties⟩, ?_⟩
  · rw [ClusterTopology.myself, ClusterTopology.lookup_addNode]
    exact (if_neg (Ne.symm other)).trans found
  · intro id entry foundEntry isOwn
    rw [ClusterTopology.lookup_addNode] at foundEntry
    split at foundEntry
    next =>
      cases foundEntry
      rw [peer] at isOwn
      cases isOwn
    next => exact only id entry foundEntry isOwn

theorem forgotten_addNode (arrangement : Arrangement) {node : ClusterNode}
    (same : node.id = topology.myselfId) (peer : node.isMyself = false) :
    Forgotten (topology.addNode arrangement node) := by
  refine ⟨node, ?_, peer⟩
  rw [ClusterTopology.myself, ClusterTopology.lookup_addNode]
  exact if_pos same.symm

theorem Forgotten.addNode (forgotten : Forgotten topology)
    (arrangement : Arrangement) {node : ClusterNode}
    (peer : node.isMyself = false) :
    Forgotten (topology.addNode arrangement node) := by
  by_cases same : node.id = topology.myselfId
  · exact forgotten_addNode arrangement same peer
  · obtain ⟨entry, found, peerToo⟩ := forgotten
    refine ⟨entry, ?_, peerToo⟩
    rw [ClusterTopology.myself, ClusterTopology.lookup_addNode]
    exact (if_neg (Ne.symm same)).trans found

/-- What a command does: it enters a peer, or it gives ranges to the server's
node. -/
theorem executeCluster_cases (keyed : topology.Keyed)
    (known : topology.myself.isSome = true)
    (command : Arrangement × ClusterSubcommand) :
    (∃ ip port, command.2 = .meet ip port ∧
      (Command.executeCluster hasher command.1 topology command.2).2 =
        topology.addNode command.1 (.new (derivedId hasher ip port) ip port
          (port + 10000) false true)) ∨
    (∀ ip port, command.2 ≠ .meet ip port) ∧
      topology.Granted topology.myselfId (grantedRanges command.2)
        (Command.executeCluster hasher command.1 topology command.2).2 := by
  obtain ⟨arrangement, subcommand⟩ := command
  cases subcommand with
  | meet ip port => exact Or.inl ⟨ip, port, rfl, rfl⟩
  | addSlots slots =>
      refine Or.inr ⟨by simp, ?_⟩
      rw [ClusterTopology.addSlots_command_eq keyed]
      rw [ClusterTopology.myself] at known
      rw [if_pos known]
      exact ClusterTopology.addSlots_granted slots keyed known
  | _ => exact Or.inr ⟨by simp, .refl topology _⟩

theorem assignedRanges_concat (commands : List (Arrangement × ClusterSubcommand))
    (command : Arrangement × ClusterSubcommand) :
    config.assignedRanges (commands ++ [command]) =
      config.assignedRanges commands ++ grantedRanges command.2 := by
  simp [assignedRanges]

/-- What every command leaves in place. -/
structure Settled (hasher : String → UInt64) (config : ServerConfig)
    (topology : ClusterTopology) : Prop where
  keyed : topology.Keyed
  myselfId_eq : topology.myselfId = config.nodeId hasher
  known : topology.myself.isSome = true

theorem Settled.execute (settled : Settled hasher config topology)
    (command : Arrangement × ClusterSubcommand) :
    Settled hasher config
      (Command.executeCluster hasher command.1 topology command.2).2 := by
  rcases executeCluster_cases settled.keyed settled.known command with
    ⟨ip, port, -, entered⟩ | ⟨-, granted⟩
  · rw [entered]
    refine ⟨settled.keyed.addNode _ _, settled.myselfId_eq, ?_⟩
    rw [ClusterTopology.myself, ClusterTopology.lookup_addNode]
    split
    next => rfl
    next => exact settled.known
  · refine ⟨granted.keyed settled.keyed,
      granted.myselfId_eq.trans settled.myselfId_eq, ?_⟩
    rw [ClusterTopology.myself, granted.lookup_isSome, granted.myselfId_eq]
    exact settled.known

theorem settled_after (commands : List (Arrangement × ClusterSubcommand)) :
    Settled hasher config (config.topologyAfter hasher commands) := by
  induction commands using List.reverseRecOn with
  | nil =>
      have granted := config.topology_granted hasher
      refine ⟨granted.keyed (ClusterTopology.keyed_new _),
        granted.myselfId_eq, ?_⟩
      change (AList.lookup (config.topology hasher).myselfId
        (config.topology hasher).nodes).isSome = true
      rw [granted.lookup_isSome, granted.myselfId_eq]
      exact congrArg Option.isSome (config.lookup_myself hasher)
  | append_singleton commands command ih =>
      rw [topologyAfter_concat]
      exact ih.execute command

theorem identified_start :
    config.Identified config.startRanges (config.topology hasher) := by
  have fresh : config.Identified []
      (ClusterTopology.new (config.myself hasher)) := by
    refine ⟨⟨config.myself hasher, config.lookup_myself hasher, rfl, rfl, rfl, rfl⟩,
      ?_⟩
    intro id node found _
    rw [ClusterTopology.lookup_new] at found
    split at found
    next same => exact same
    next => cases found
  exact fresh.grant (config.topology_granted hasher)

theorem identified_after {commands : List (Arrangement × ClusterSubcommand)}
    (others : ∀ command ∈ commands, config.MeetsOther hasher command.2) :
    config.Identified (config.assignedRanges commands)
      (config.topologyAfter hasher commands) := by
  induction commands using List.reverseRecOn with
  | nil =>
      rw [assignedRanges, List.flatMap_nil, List.append_nil]
      exact identified_start
  | append_singleton commands command ih =>
      have identified := ih fun earlier member =>
        others earlier (List.mem_append_left _ member)
      have settled : Settled hasher config _ := settled_after commands
      rw [topologyAfter_concat, assignedRanges_concat]
      rcases executeCluster_cases settled.keyed settled.known command with
        ⟨ip, port, met, entered⟩ | ⟨-, granted⟩
      · have other := others command (by simp)
        rw [met, MeetsOther, ← settled.myselfId_eq] at other
        have nothing : grantedRanges (.meet ip port) = [] := rfl
        rw [entered, met, nothing, List.append_nil]
        exact identified.addNode command.1 other rfl
      · exact identified.grant granted

theorem forgotten_after {commands : List (Arrangement × ClusterSubcommand)}
    {command : Arrangement × ClusterSubcommand} (member : command ∈ commands)
    (metItself : ¬ config.MeetsOther hasher command.2) :
    Forgotten (config.topologyAfter hasher commands) := by
  induction commands using List.reverseRecOn with
  | nil => cases member
  | append_singleton commands last ih =>
      have settled : Settled hasher config _ := settled_after commands
      rw [topologyAfter_concat]
      rcases List.mem_append.mp member with earlier | isLast
      · have forgotten := ih earlier
        rcases executeCluster_cases settled.keyed settled.known last with
          ⟨ip, port, -, entered⟩ | ⟨-, granted⟩
        · rw [entered]
          exact forgotten.addNode last.1 rfl
        · exact forgotten.grant granted
      · cases List.mem_singleton.mp isLast
        rcases executeCluster_cases settled.keyed settled.known command with
          ⟨ip, port, met, entered⟩ | ⟨notMeet, -⟩
        · rw [met, MeetsOther, not_not, ← settled.myselfId_eq] at metItself
          rw [entered]
          exact forgotten_addNode command.1 metItself rfl
        · refine absurd ?_ metItself
          cases subcommand : command.2 with
          | meet ip port => exact absurd subcommand (notMeet ip port)
          | _ => trivial

/-- A server's node stays its own exactly as long as nobody makes the server meet
a peer under its own id. -/
theorem identity_preserved_iff (hasher : String → UInt64)
    (config : ServerConfig)
    (commands : List (Arrangement × ClusterSubcommand)) :
    config.Identified (config.assignedRanges commands)
        (config.topologyAfter hasher commands) ↔
      ∀ command ∈ commands, config.MeetsOther hasher command.2 := by
  constructor
  · intro identified command member
    by_contra metItself
    exact (forgotten_after member metItself).not_identified identified
  · exact identified_after

/-- A server without a configured id is made to meet its own address. -/
theorem server_meets_itself :
    let config : ServerConfig := ⟨16, 0, true, none, "10.0.0.1", 6379, 16379, none⟩
    let hasher : String → UInt64 := fun text => UInt64.ofNat text.length
    let after := config.topologyAfter hasher [(.front, .meet "10.0.0.1" 6379)]
    after.myself.map (fun me => (me.isMyself, me.slots)) = some (false, []) ∧
      ¬ config.Identified
        (config.assignedRanges [(.front, .meet "10.0.0.1" 6379)]) after := by
  intro config hasher after
  have stored : after.myself.map (fun me => (me.isMyself, me.slots)) =
      some (false, []) := by
    decide +kernel
  refine ⟨stored, ?_⟩
  obtain ⟨node, found, fields⟩ := Option.map_eq_some_iff.mp stored
  exact Forgotten.not_identified ⟨node, found, congrArg Prod.fst fields⟩

end ServerConfig

end RustiCache
