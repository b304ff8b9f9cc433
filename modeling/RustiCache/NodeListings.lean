import RustiCache.ClusterRedirections
import RustiCache.SlotSpecifications
import RustiCache.TextLines

/-!
# Reading the list of nodes

The reply to `CLUSTER NODES` has one line for each node.  A client cuts it into
lines and words, the address at its last separators, and reads the numbers.  It
finds the nodes of the table, in the order of the table, unless white space in an
id or in an address makes other words of them.
-/

namespace RustiCache

namespace NodeListing

/-- Whether the node is the one that answers, and whether it is a master. -/
def readFlags (text : String) : Option (Bool × Bool) :=
  match text with
  | "myself,master" => some (true, true)
  | "myself,slave" => some (true, false)
  | "master" => some (false, true)
  | "slave" => some (false, false)
  | _ => none

/-- The address, the port and the port of the cluster bus. -/
def readAddress (text : String) : Option (String × UInt16 × UInt16) :=
  (rsplitOnce '@' text.toList).bind fun outer =>
    (rsplitOnce ':' outer.1).bind fun inner =>
      (ClusterTopology.parseBound (String.ofList inner.2)).toOption.bind
        fun port =>
          (ClusterTopology.parseBound (String.ofList outer.2)).toOption.map
            fun busPort => (String.ofList inner.1, port, busPort)

def readRanges (words : List String) : Option (List (UInt16 × UInt16)) :=
  words.mapM fun word => (ClusterTopology.parseRange word).toOption

def readNode (line : List Char) : Option ClusterNode :=
  match splitWhitespace (String.ofList line) with
  | id :: address :: flags :: "-" :: "0" :: "0" :: "1" :: "connected" ::
      ranges =>
      (readAddress address).bind fun place =>
        (readFlags flags).bind fun kind =>
          (readRanges ranges).map fun slots =>
            ⟨id, place.1, place.2.1, place.2.2, kind.1, kind.2, slots⟩
  | _ => none

/-- The nodes that a client finds in the reply to `CLUSTER NODES`. -/
def readNodes (text : String) : Option (List ClusterNode) :=
  (lines [] text.toList).mapM readNode

end NodeListing

namespace ClusterNode

/-- The word of the address in the line of a node. -/
def address (node : ClusterNode) : String :=
  node.endpoint ++ "@" ++ toString node.busPort

/-- The words in the line of a node. -/
def words (node : ClusterNode) : List String :=
  [node.id, node.address, ClusterTopology.nodeFlags node, "-", "0", "0", "1",
    "connected"] ++ node.slots.map ClusterTopology.formatRange

/-- White space makes no other words of the node's id and address. -/
structure Plain (node : ClusterNode) : Prop where
  id : IsWord node.id
  ip : ∀ character ∈ node.ip.toList, isWhitespace character = false

end ClusterNode

namespace ClusterTopology

/-- White space makes no other words of any node's id and address. -/
def Plain (topology : ClusterTopology) : Prop :=
  ∀ id node, AList.lookup id topology.nodes = some node → node.Plain

theorem Plain.of_mem {topology : ClusterTopology} (plain : topology.Plain)
    {row : (_ : String) × ClusterNode} (inTable : row ∈ topology.nodes.entries) :
    row.2.Plain :=
  plain row.1 row.2 (List.mem_dlookup topology.nodes.nodupKeys inTable)

theorem Plain.addNode {topology : ClusterTopology} (plain : topology.Plain)
    (arrangement : Arrangement) {node : ClusterNode} (isPlain : node.Plain) :
    (topology.addNode arrangement node).Plain := by
  intro id other found
  rw [lookup_addNode] at found
  split at found
  next =>
    cases found
    exact isPlain
  next => exact plain id other found

theorem Plain.grant {topology next : ClusterTopology} {nodeId : String}
    {ranges : List (UInt16 × UInt16)} (plain : topology.Plain)
    (granted : topology.Granted nodeId ranges next) : next.Plain := by
  intro id node found
  rw [granted.lookup_eq] at found
  split at found
  next =>
    obtain ⟨before, known, rfl⟩ := Option.map_eq_some_iff.mp found
    exact ⟨(plain nodeId before known).id, (plain nodeId before known).ip⟩
  next => exact plain id node found

theorem isWord_formatRange (range : UInt16 × UInt16) :
    IsWord (formatRange range) where
  nonempty := by
    intro empty
    have parsed := parseRange_formatRange range
    rw [empty] at parsed
    cases parsed
  solid := formatRange_solid range

theorem words_formatRange (slots : List (UInt16 × UInt16)) :
    ∀ word ∈ slots.map formatRange, IsWord word := by
  intro word member
  obtain ⟨range, -, rfl⟩ := List.mem_map.mp member
  exact isWord_formatRange range

theorem isWord_nodeFlags (node : ClusterNode) : IsWord (nodeFlags node) := by
  unfold nodeFlags
  split
  next => split <;> exact isWord_of_all (by decide) (by decide)
  next => split <;> exact isWord_of_all (by decide) (by decide)

theorem not_mem_number {separator : Char} (separates : separator.isDigit = false)
    (number : UInt16) : separator ∉ (toString number).toList := by
  intro member
  rw [isDigit_of_mem_number member] at separates
  cases separates

end ClusterTopology

namespace ClusterNode

open ClusterTopology

theorem toList_address (node : ClusterNode) :
    node.address.toList = (node.ip.toList ++ ':' :: (toString node.port).toList) ++
      '@' :: (toString node.busPort).toList := by
  simp [address, endpoint]

variable {node : ClusterNode} (plain : node.Plain)

include plain

theorem isWord_address : IsWord node.address where
  nonempty := by
    intro empty
    have letters := node.toList_address
    rw [empty] at letters
    simp at letters
  solid := by
    intro character member
    rw [node.toList_address] at member
    simp only [List.mem_append, List.mem_cons] at member
    rcases member with (inIp | rfl | inPort) | rfl | inBus
    · exact plain.ip character inIp
    · decide
    · exact number_solid _ character inPort
    · decide
    · exact number_solid _ character inBus

theorem isWord_of_mem_words : ∀ word ∈ node.words, IsWord word := by
  intro word member
  simp only [words, List.mem_append, List.mem_cons, List.not_mem_nil, or_false,
    List.mem_map] at member
  rcases member with
    (rfl | rfl | rfl | rfl | rfl | rfl | rfl | rfl) | ⟨range, -, rfl⟩
  · exact plain.id
  · exact isWord_address plain
  · exact isWord_nodeFlags node
  · exact isWord_of_all (by decide) (by decide)
  · exact isWord_of_all (by decide) (by decide)
  · exact isWord_of_all (by decide) (by decide)
  · exact isWord_of_all (by decide) (by decide)
  · exact isWord_of_all (by decide) (by decide)
  · exact isWord_formatRange range

end ClusterNode

namespace ClusterTopology

/-- The line of a node is made of its words. -/
theorem formatNode_eq (node : ClusterNode) :
    formatNode node = " ".intercalate node.words ++ "\r\n" := by
  have front : " ".intercalate [node.id, node.address, nodeFlags node, "-", "0",
      "0", "1", "connected"] =
      node.id ++ " " ++ node.ip ++ ":" ++ toString node.port ++ "@" ++
        toString node.busPort ++ " " ++ nodeFlags node ++
        " - 0 0 1 connected" := by
    apply String.toList_injective
    simp [ClusterNode.address, ClusterNode.endpoint]
  unfold formatNode ClusterNode.words
  cases slots : node.slots with
  | nil =>
      rw [List.map_nil, List.append_nil, front]
      rfl
  | cons range others =>
      have filled : (" ".intercalate
          ((range :: others).map formatRange)).isEmpty = false := by
        rw [String.isEmpty_eq_false_iff]
        intro empty
        have cut := splitWhitespace_intercalate
          (words_formatRange (range :: others)) (by simp)
        rw [empty] at cut
        cases cut
      rw [String.intercalate_append_of_ne_nil (by simp) (by simp), front]
      simp only [filled, Bool.false_eq_true, if_false]

end ClusterTopology

namespace NodeListing

open ClusterTopology

theorem readFlags_nodeFlags (node : ClusterNode) :
    readFlags (nodeFlags node) = some (node.isMyself, node.isMaster) := by
  unfold nodeFlags
  cases node.isMyself <;> cases node.isMaster <;> rfl

theorem readAddress_address (node : ClusterNode) :
    readAddress node.address = some (node.ip, node.port, node.busPort) := by
  rw [readAddress, node.toList_address,
    rsplitOnce_append (not_mem_number (by decide) node.busPort), Option.bind_some,
    rsplitOnce_append (not_mem_number (by decide) node.port), Option.bind_some]
  simp only [String.ofList_toList, parseBound_number]
  rfl

theorem readRanges_formatRange (slots : List (UInt16 × UInt16)) :
    readRanges (slots.map formatRange) = some slots := by
  rw [readRanges]
  induction slots with
  | nil => rfl
  | cons range slots ih =>
      rw [List.map_cons, List.mapM_cons, ih, parseRange_formatRange]
      rfl

theorem readNode_words {node : ClusterNode} (plain : node.Plain) :
    readNode (" ".intercalate node.words).toList = some node := by
  rw [readNode, String.ofList_toList,
    splitWhitespace_intercalate (ClusterNode.isWord_of_mem_words plain)
      (by simp [ClusterNode.words])]
  simp only [ClusterNode.words, List.cons_append, List.nil_append,
    readAddress_address, readFlags_nodeFlags, readRanges_formatRange,
    Option.bind_some, Option.map_some]

/-- The reply to `CLUSTER NODES` is cut into lines, words and numbers, and gives
back every node of the table with its address, its flags and its slot ranges. -/
theorem readNodes_formatClusterNodes {topology : ClusterTopology}
    (plain : topology.Plain) :
    readNodes topology.formatClusterNodes =
      some (topology.nodes.entries.map fun row => row.2) := by
  let line (row : (_ : String) × ClusterNode) : List Char :=
    (" ".intercalate row.2.words).toList
  have layout : topology.formatClusterNodes.toList =
      (topology.nodes.entries.map line).flatMap fun text =>
        text ++ ['\r', '\n'] := by
    simp [formatClusterNodes, formatNode_eq, line, List.flatMap_map]
  have inline : ∀ text ∈ topology.nodes.entries.map line, '\n' ∉ text := by
    intro text member
    obtain ⟨row, inTable, rfl⟩ := List.mem_map.mp member
    refine not_mem_intercalate (by decide) fun word inWords member => ?_
    have blank := (ClusterNode.isWord_of_mem_words (plain.of_mem inTable) word
      inWords).solid '\n' member
    cases blank
  have each : ∀ row ∈ topology.nodes.entries, row.2.Plain :=
    fun row inTable => plain.of_mem inTable
  rw [readNodes, layout, lines_flatMap inline]
  generalize topology.nodes.entries = rows at each ⊢
  clear layout inline
  induction rows with
  | nil => rfl
  | cons row rows ih =>
      have others := ih fun other member =>
        each other (List.mem_cons_of_mem row member)
      rw [List.map_cons, List.mapM_cons, readNode_words (each row (by simp)),
        others]
      rfl

end NodeListing

theorem isWhitespace_hexDigit (number : Nat) :
    ∀ character ∈ Nat.toDigits 16 number, isWhitespace character = false := by
  have single : ∀ digit < 16, isWhitespace (Nat.digitChar digit) = false := by
    decide
  induction number using Nat.strongRecOn with
  | ind number ih =>
      intro character member
      by_cases short : number < 16
      · rw [Nat.toDigits_of_lt_base short, List.mem_singleton] at member
        rw [member]
        exact single number short
      · rw [Nat.toDigits_of_base_le (by decide) (Nat.not_lt.mp short),
          List.mem_append, List.mem_singleton] at member
        rcases member with earlier | rfl
        · exact ih (number / 16) (by omega) character earlier
        · exact single _ (Nat.mod_lt _ (by decide))

/-- The id of a node that has not been given one is a word. -/
theorem isWord_hex40 (number : UInt64) : IsWord (Command.hex40 number) where
  nonempty := by
    intro empty
    have long : (Command.hex40 number).toList.length = 0 := by rw [empty]; rfl
    simp [Command.hex40, Nat.toDigits_ne_nil] at long
  solid := by
    intro character member
    rw [Command.hex40, String.toList_ofList, List.mem_append] at member
    rcases member with filled | digit
    · rw [List.eq_of_mem_replicate filled]
      decide
    · exact isWhitespace_hexDigit _ character digit

namespace ServerConfig

variable {hasher : String → UInt64} {config : ServerConfig}

/-- White space makes no other words of the configured id and address. -/
structure Plain (config : ServerConfig) : Prop where
  id : ∀ id ∈ config.clusterNodeId, IsWord id
  ip : ∀ character ∈ config.clusterAnnounceIp.toList,
    isWhitespace character = false

theorem Plain.topology (plain : config.Plain) :
    (config.topology hasher).Plain := by
  refine ClusterTopology.Plain.grant ?_ (config.topology_granted hasher)
  intro id node found
  rw [ClusterTopology.lookup_new] at found
  split at found
  next =>
    cases found
    refine ⟨?_, plain.ip⟩
    change IsWord (config.nodeId hasher)
    rw [nodeId]
    cases given : config.clusterNodeId with
    | none => exact isWord_hex40 _
    | some id => exact plain.id id given
  next => cases found

theorem plain_execute {topology : ClusterTopology}
    (settled : Settled hasher config topology) (plain : topology.Plain)
    (arrangement : Arrangement) {subcommand : ClusterSubcommand}
    (solid : ∀ ip port, subcommand = .meet ip port →
      ∀ character ∈ ip.toList, isWhitespace character = false) :
    (Command.executeCluster hasher arrangement topology subcommand).2.Plain := by
  rcases executeCluster_cases settled.keyed settled.known
    (arrangement, subcommand) with ⟨ip, port, met, entered⟩ | ⟨-, granted⟩
  · rw [entered]
    exact plain.addNode arrangement ⟨isWord_hex40 _, solid ip port met⟩
  · exact plain.grant granted

end ServerConfig

namespace ServerPool

variable {hasher : String → UInt64} {config : PoolConfig}

/-- No other node is entered under an address with white space. -/
def MeetsPlain (config : PoolConfig) (pool : ServerPool hasher)
    (action : PoolAction) : Prop :=
  ∀ ip port, pool.upcoming config action = some (.cluster (.meet ip port)) →
    ∀ character ∈ ip.toList, isWhitespace character = false

/-- **A client reads the nodes that the server knows.**  In every run of a server
of a cluster whose id and address are free of white space, the id not being empty
if it is configured, and in which no node is entered under an address with white
space, the text of the reply to `CLUSTER NODES` can be cut into lines and words,
and the nodes that a client reads there are those of the table, with their
addresses, flags and slot ranges. -/
theorem nodes_read {serverConfig : ServerConfig}
    (clustered : serverConfig.clusterEnabled = true)
    (plain : serverConfig.Plain) {replState : ReplicationState}
    {channels : Channels} {actions : List PoolAction} {pool : ServerPool hasher}
    (reaches : Reaches (step config) (MeetsPlain config)
      (start (serverConfig.withServerConfig hasher replState channels)) actions
      pool) :
    ∃ topology, pool.server.cluster = some topology ∧
      (∀ moment rawCmd isAuthenticated,
        ((Command.cluster .nodes).perform moment pool.server rawCmd
          isAuthenticated).reply =
            some (Value.string topology.formatClusterNodes)) ∧
      NodeListing.readNodes topology.formatClusterNodes =
        some (topology.nodes.entries.map fun row => row.2) := by
  have kept : ∃ topology, pool.server.cluster = some topology ∧
      ServerConfig.Settled hasher serverConfig topology ∧ topology.Plain := by
    induction reaches with
    | refl =>
        exact ⟨serverConfig.topology hasher, if_pos clustered,
          ServerConfig.settled_after [], plain.topology⟩
    | @snoc state _ _ action _ solid taken ih =>
        obtain ⟨topology, isTopology, settled, isPlain⟩ := ih
        have changed := cluster_step taken isTopology
        cases found : clusterCommand config state action with
        | none =>
            rw [found] at changed
            exact ⟨topology, changed, settled, isPlain⟩
        | some command =>
            rw [found] at changed
            refine ⟨_, changed, settled.execute command,
              ServerConfig.plain_execute settled isPlain command.1 ?_⟩
            intro ip port met
            refine solid ip port ?_
            rw [upcoming_of_clusterCommand found, met]
  obtain ⟨topology, isTopology, -, isPlain⟩ := kept
  refine ⟨topology, isTopology, fun moment rawCmd isAuthenticated => ?_,
    NodeListing.readNodes_formatClusterNodes isPlain⟩
  simp only [Command.perform, isTopology]
  rfl

/-- Test the address of a node to be entered. -/
def checkMeet (config : PoolConfig) (pool : ServerPool hasher)
    (action : PoolAction) : Bool :=
  match pool.upcoming config action with
  | some (.cluster (.meet ip _)) =>
      ip.toList.all fun character => !isWhitespace character
  | _ => true

theorem meetsPlain_of_checkMeet {pool : ServerPool hasher} {action : PoolAction}
    (checked : checkMeet config pool action = true) :
    MeetsPlain config pool action := by
  intro ip port runs character member
  rw [checkMeet, runs] at checked
  simpa using List.all_eq_true.mp checked character member

/-- The server has met another node, and lists both. -/
theorem nodes_read_meetSet :
    let serverConfig : ServerConfig :=
      ⟨1, 0, true, some "n", "10.0.0.1", 6379, 16379, some "15495"⟩
    ∃ pool, Reaches (step ⟨none, 1024⟩) (MeetsPlain ⟨none, 1024⟩)
        (start (serverConfig.withServerConfig (fun _ => 0) (.newMaster none)
          fun _ => none)) meetSetActions pool ∧
      ∃ topology, pool.server.cluster = some topology ∧
        topology.nodes.entries.length = 2 ∧
        NodeListing.readNodes topology.formatClusterNodes =
          some (topology.nodes.entries.map fun row => row.2) := by
  intro serverConfig
  have found : (runActions
      (fun pool action =>
        if checkMeet ⟨none, 1024⟩ pool action then
          step ⟨none, 1024⟩ pool action
        else
          none)
      (start (serverConfig.withServerConfig (fun _ => 0) (.newMaster none)
        fun _ => none)) meetSetActions).bind (fun pool =>
          pool.server.cluster.map (·.nodes.entries.length)) = some 2 := by
    decide +kernel
  obtain ⟨pool, ran, counted⟩ := Option.bind_eq_some_iff.mp found
  have reaches := reaches_of_checked (fun _ => meetsPlain_of_checkMeet)
    (fun _ _ _ => trivial) trivial ran
  have plain : serverConfig.Plain :=
    ⟨fun id given => by
      cases given
      exact isWord_of_all (by decide) (by decide), solid_of_all _ (by decide)⟩
  obtain ⟨topology, isTopology, -, reads⟩ := nodes_read rfl plain reaches
  rw [isTopology] at counted
  exact ⟨pool, reaches, topology, isTopology, Option.some.inj counted, reads⟩

end ServerPool

end RustiCache
