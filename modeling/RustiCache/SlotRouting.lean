import RustiCache.ClientConnection
import RustiCache.NodeIdentity

/-!
# Routing by slots

A server of a cluster redirects a command by the slot of its first key.  The
other keys of `DEL` and `EXISTS` are not looked at.
-/

namespace RustiCache

namespace Command

/-- The keys of the commands that are routed. -/
def keyNames : Command → Option (List String)
  | get key => some [key]
  | set key _ _ => some [key]
  | del names => some names
  | «exists» names => some names
  | _ => none

theorem targetKey_of_keyNames {cmd : Command} {names : List String}
    (named : cmd.keyNames = some names) : cmd.targetKey = names.head? := by
  cases cmd <;> cases named <;> rfl

end Command

namespace ClusterTopology

/-- The key's slot is this node's. -/
def Serves (topology : ClusterTopology) (key : String) : Prop :=
  topology.ownsSlot (keySlot (asBytes key)) = true

instance (topology : ClusterTopology) (key : String) :
    Decidable (topology.Serves key) :=
  inferInstanceAs (Decidable (_ = true))

end ClusterTopology

/-- A new server serves the keys of the slots in its specification. -/
theorem ServerConfig.serves_topology_iff {hasher : String → UInt64}
    (config : ServerConfig) (key : String) :
    (config.topology hasher).Serves key ↔
      ClusterTopology.Listed (keySlot (asBytes key)) config.startRanges := by
  have granted := config.topology_granted hasher
  rw [ClusterTopology.Serves, ClusterTopology.ownsSlot_iff, granted.ownerId_eq,
    granted.myselfId_eq, ClusterTopology.ownerId_new]
  split
  next listed => exact iff_of_true rfl listed
  next unlisted => exact iff_of_false (Option.some_ne_none _).symm unlisted

namespace Connection

variable {hasher : String → UInt64} {topology : ClusterTopology}
  {value : Value} {cmd : Command} {names : List String}

/-- Authenticated clients get a redirection or an error, the same whatever is
stored, and nothing changes. -/
def Refused (hasher : String → UInt64) (topology : ClusterTopology)
    (value : Value) : Prop :=
  ∃ reply : Bytes, reply.head? = some 45 ∧
    ∀ (config : ConnectionConfig) (moment : Moment)
      (server : ServerState hasher) (connection : Connection) (rawCmd : Bytes),
      server.cluster = some topology → connection.isAuthenticated = true →
        dispatch config moment server connection rawCmd value =
          ⟨server, connection.write reply⟩

theorem dispatch_of_keyNames (decoded : Command.fromValue value = .ok cmd)
    (named : cmd.keyNames = some names) (config : ConnectionConfig)
    (moment : Moment) (server : ServerState hasher) (connection : Connection)
    (rawCmd : Bytes) :
    dispatch config moment server connection rawCmd value =
      serve config moment server connection rawCmd cmd := by
  rw [dispatch, decoded]
  cases cmd <;> first | rfl | cases named

/-- The redirection of a key that is not served here. -/
def redirection (topology : ClusterTopology) (key : String) : Bytes :=
  let slot := keySlot (asBytes key)
  match topology.getNodeForSlot slot with
  | some owner =>
      asBytes ("-MOVED " ++ toString slot ++ " " ++ owner.endpoint ++ "\r\n")
  | none => asBytes "-CLUSTERDOWN The cluster is down\r\n"

theorem redirect_eq (topology : ClusterTopology) (cmd : Command) :
    redirect (some topology) true cmd =
      cmd.targetKey.bind fun key =>
        if topology.Serves key then none
        else some (redirection topology key) := by
  unfold redirect
  cases cmd.targetKey with
  | none => rfl
  | some key =>
      simp only [Option.bind_some, if_true, redirection]
      by_cases here : topology.Serves key
      · rw [if_pos here]
        exact if_pos here
      · rw [if_neg here]
        refine (if_neg here).trans ?_
        cases topology.getNodeForSlot (keySlot (asBytes key)) <;> rfl

theorem redirection_head (topology : ClusterTopology) (key : String) :
    (redirection topology key).head? = some 45 := by
  rw [redirection]
  split
  next =>
    simp only [asBytes_append, List.append_assoc]
    exact List.head?_append_of_ne_nil _ (by decide)
  next => decide

theorem refused_of_first {first : String}
    (decoded : Command.fromValue value = .ok cmd)
    (named : cmd.keyNames = some names) (isFirst : names.head? = some first)
    (elsewhere : ¬ topology.Serves first) : Refused hasher topology value := by
  refine ⟨redirection topology first, redirection_head topology first, ?_⟩
  intro config moment server connection rawCmd clustered authenticated
  have redirected : redirect (some topology) true cmd =
      some (redirection topology first) := by
    rw [redirect_eq, Command.targetKey_of_keyNames named, isFirst,
      Option.bind_some, if_neg elsewhere]
  rw [dispatch_of_keyNames decoded named, serve, clustered, authenticated,
    redirected]

/-- A command whose first key is served here is executed. -/
theorem serve_of_first {first : String} (named : cmd.keyNames = some names)
    (isFirst : names.head? = some first) (here : topology.Serves first)
    (config : ConnectionConfig) (moment : Moment) {server : ServerState hasher}
    (clustered : server.cluster = some topology) {connection : Connection}
    (authenticated : connection.isAuthenticated = true) (rawCmd : Bytes) :
    serve config moment server connection rawCmd cmd =
      let executed := cmd.execute moment server (some rawCmd)
        config.requirepass true
      ⟨executed.server,
        { connection with
          isAuthenticated := executed.isAuthenticated
          sent := connection.sent ++
            (executed.reply.map Value.serialize).getD [] }⟩ := by
  have notRedirected : redirect (some topology) true cmd = none := by
    rw [redirect_eq, Command.targetKey_of_keyNames named, isFirst,
      Option.bind_some, if_pos here]
  rw [serve, clustered, authenticated, notRedirected]

/-- A command with several keys is answered with a number once it is executed. -/
theorem execute_several {key : String} (named : cmd.keyNames = some names)
    {first : String} (isFirst : names.head? = some first) (member : key ∈ names)
    (differ : key ≠ first) (moment : Moment) (server : ServerState hasher)
    (rawCmd : Option Bytes) :
    ∃ count, (cmd.execute moment server rawCmd none true).reply =
      some (Value.integer count) := by
  cases cmd with
  | get _ =>
      cases named
      cases isFirst
      exact absurd (List.mem_singleton.mp member) differ
  | set _ _ _ =>
      cases named
      cases isFirst
      exact absurd (List.mem_singleton.mp member) differ
  | del names => exact ⟨_, rfl⟩
  | «exists» names => exact ⟨_, rfl⟩
  | _ => cases named

theorem not_refused_of_first {key first : String}
    (decoded : Command.fromValue value = .ok cmd)
    (named : cmd.keyNames = some names) (isFirst : names.head? = some first)
    (here : topology.Serves first) (member : key ∈ names)
    (elsewhere : ¬ topology.Serves key) : ¬ Refused hasher topology value := by
  rintro ⟨reply, refusal, always⟩
  -- any server with this topology shows that the command is executed
  let config : ConnectionConfig := ⟨none, 0, 0⟩
  let moment : Moment := ⟨fun _ => 0, .front⟩
  let server : ServerState hasher :=
    ⟨.withConfig hasher 1 0, .newMaster none, fun _ => none, some topology⟩
  have refusedHere := always config moment server (Connection.new config) []
    rfl rfl
  have differ : key ≠ first := by
    rintro rfl
    exact elsewhere here
  obtain ⟨count, counted⟩ := execute_several named isFirst member differ moment
    server (some [])
  rw [dispatch_of_keyNames decoded named,
    serve_of_first named isFirst here config moment rfl rfl] at refusedHere
  have written := congrArg (fun session => session.connection.sent) refusedHere
  have sent : (Value.integer count).serialize = reply := by
    simpa [counted, write, Connection.new, config] using written
  rw [← sent] at refusal
  revert refusal
  rw [Value.serialize, List.append_assoc, List.head?_append_of_ne_nil _ (by decide)]
  decide

/-- A command for keys of which some are served elsewhere is refused, exactly if
its first key does not make it be executed here. -/
theorem routing_respected_iff (decoded : Command.fromValue value = .ok cmd)
    (named : cmd.keyNames = some names) :
    ((∀ key ∈ names, topology.Serves key) ∨ Refused hasher topology value) ↔
      ∀ first ∈ names.head?, topology.Serves first →
        ∀ key ∈ names, topology.Serves key := by
  constructor
  · rintro (all | refused) first isFirst here key member
    · exact all key member
    · by_contra elsewhere
      exact not_refused_of_first decoded named isFirst here member elsewhere
        refused
  · intro together
    cases isFirst : names.head? with
    | none =>
        left
        rw [List.head?_eq_none_iff] at isFirst
        rw [isFirst]
        simp
    | some first =>
        by_cases here : topology.Serves first
        · exact Or.inl (together first isFirst here)
        · exact Or.inr (refused_of_first decoded named isFirst here)

/-- The slot of the key `a` alone, and a command for a key next to it. -/
theorem routing_respected_iff_neighbours :
    let topology := (ServerConfig.topology (fun _ => 0)
      ⟨1, 0, true, some "n", "10.0.0.1", 6379, 16379, some "15495"⟩)
    let value := Value.bulkArray [asBytes "DEL", asBytes "b", asBytes "a"]
    Refused (fun _ => 0) topology value := by
  intro topology value
  have decoded : Command.fromValue value = .ok (.del ["b", "a"]) := by decide
  have elsewhere : ¬ topology.Serves "b" :=
    (ServerConfig.serves_topology_iff _ "b").not.mpr (by decide +kernel)
  refine ((routing_respected_iff decoded rfl).mpr ?_).resolve_left ?_
  · intro first isFirst here
    cases isFirst
    exact absurd here elsewhere
  · intro all
    exact elsewhere (all "b" (by simp))

/-- The other way round the command is executed, with a key of another slot. -/
theorem foreign_key_looked_up :
    let topology := (ServerConfig.topology (fun _ => 0)
      ⟨1, 0, true, some "n", "10.0.0.1", 6379, 16379, some "15495"⟩)
    let server : ServerState fun _ => 0 :=
      ⟨.withConfig _ 1 0, .newMaster none, fun _ => none, some topology⟩
    let value := Value.bulkArray [asBytes "EXISTS", asBytes "a", asBytes "b"]
    ¬ topology.Serves "b" ∧
      (dispatch ⟨none, 1024, 0⟩ ⟨fun _ => 0, .front⟩ server
        (Connection.new ⟨none, 1024, 0⟩) value.serialize
        value).connection.sent = asBytes ":0\r\n" ∧
      ¬ ((∀ key ∈ ["a", "b"], topology.Serves key) ∨
        Refused (fun _ => 0) topology value) := by
  intro topology server value
  have decoded : Command.fromValue value = .ok (.exists ["a", "b"]) := by decide
  have here : topology.Serves "a" :=
    (ServerConfig.serves_topology_iff _ "a").mpr (by decide +kernel)
  have elsewhere : ¬ topology.Serves "b" :=
    (ServerConfig.serves_topology_iff _ "b").not.mpr (by decide +kernel)
  refine ⟨elsewhere, ?_, ?_⟩
  · rw [dispatch_of_keyNames decoded rfl, serve_of_first rfl rfl here _ _ rfl rfl]
    decide +kernel
  rintro (all | refused)
  · exact elsewhere (all "b" (by simp))
  · exact not_refused_of_first decoded rfl rfl here (by simp) elsewhere refused

end Connection

end RustiCache
