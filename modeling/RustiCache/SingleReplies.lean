import RustiCache.AuthenticationGuard
import RustiCache.CommandReplies

/-!
# One reply for each request

A frame other than `PSYNC` and `REPLCONF ACK` is answered with one value or with
one line.  Three kinds of text get into such a line: the name of an unknown
command, the endpoint of another node, and the id of this node if its table does
not have it.  The reply is one frame exactly when these texts are single lines.
-/

namespace RustiCache

open Value (OneLine OneFrame Answers)

namespace Command

/-- The frame acknowledges a replication offset, which nobody answers. -/
def IsAck (value : Value) : Prop :=
  ∃ sub args, fromValue value = .ok (.replConf (sub :: args)) ∧
    toAsciiUppercase sub = "ACK"

end Command

namespace Connection

variable {hasher : String → UInt64}

/-- The node to which a client is sent for a key. -/
def foreignOwner (cluster : Option ClusterTopology) (isAuthenticated : Bool)
    (cmd : Command) : Option ClusterNode :=
  match cluster, cmd.targetKey with
  | some topology, some key =>
      let slot := keySlot (asBytes key)
      if isAuthenticated && !topology.ownsSlot slot then
        topology.getNodeForSlot slot
      else
        none
  | _, _ => none

/-- The texts that the reply to a command repeats within a line. -/
def repeatedBy (config : ConnectionConfig) (cluster : Option ClusterTopology)
    (isAuthenticated : Bool) (cmd : Command) : List String :=
  match foreignOwner cluster isAuthenticated cmd with
  | some owner => [owner.endpoint]
  | none =>
      if isAuthenticated || config.requirepass.isNone then
        (cmd.strayId cluster).toList
      else
        []

/-- The texts that the reply to a frame repeats within a line. -/
def repeated (config : ConnectionConfig) (cluster : Option ClusterTopology)
    (isAuthenticated : Bool) (value : Value) : List String :=
  match Command.fromValue value with
  | .error _ => (Command.unknownName value).toList
  | .ok cmd => repeatedBy config cluster isAuthenticated cmd

theorem repeatedBy_quit (config : ConnectionConfig)
    (cluster : Option ClusterTopology) (isAuthenticated : Bool) :
    repeatedBy config cluster isAuthenticated .quit = [] := by
  unfold repeatedBy foreignOwner
  cases cluster <;> exact ite_self []

theorem moved_answers (slot : UInt16) (owner : ClusterNode) :
    Answers [owner.endpoint]
      (asBytes ("-MOVED " ++ toString slot ++ " " ++ owner.endpoint ++
        "\r\n")) := by
  have layout : asBytes ("-MOVED " ++ toString slot ++ " " ++ owner.endpoint ++
      "\r\n") = asBytes "-" ++ asBytes ("MOVED " ++ toString slot.toNat ++ " " ++
        owner.endpoint) ++ Value.crlf := by
    simp only [asBytes_append]
    rfl
  have digits := return_not_mem_decimal slot.toNat
  have noReturn : (13 : UInt8) ∉
      asBytes ("MOVED " ++ toString slot.toNat ++ " ") := by
    simp only [asBytes_append, List.mem_append, not_or]
    exact ⟨⟨by decide, digits⟩, by decide⟩
  rw [layout]
  exact .line ((Value.oneLine_append_left noReturn owner.endpoint).trans
    (by simp))

theorem clusterDown_answers :
    Answers [] (asBytes "-CLUSTERDOWN The cluster is down\r\n") := by
  have layout : asBytes "-CLUSTERDOWN The cluster is down\r\n" =
      asBytes "-" ++ asBytes "CLUSTERDOWN The cluster is down" ++
        Value.crlf := by
    decide +kernel
  have line : OneLine "CLUSTERDOWN The cluster is down" := by decide +kernel
  rw [layout]
  exact .line (by simpa using line)

/-- A command is redirected to another node, refused for want of one, or
served here. -/
theorem redirect_cases (cluster : Option ClusterTopology)
    (isAuthenticated : Bool) (cmd : Command) :
    (redirect cluster isAuthenticated cmd = none ∧
        foreignOwner cluster isAuthenticated cmd = none) ∨
      ∃ reply key, redirect cluster isAuthenticated cmd = some reply ∧
        cmd.targetKey = some key ∧
        Answers ((foreignOwner cluster isAuthenticated cmd).map
          ClusterNode.endpoint).toList reply := by
  unfold redirect foreignOwner
  cases cluster with
  | none => exact Or.inl ⟨rfl, rfl⟩
  | some topology =>
      cases routed : cmd.targetKey with
      | none => exact Or.inl ⟨rfl, rfl⟩
      | some key =>
          cases isAuthenticated with
          | false => exact Or.inl ⟨rfl, rfl⟩
          | true =>
              dsimp only
              cases topology.ownsSlot (keySlot (asBytes key)) with
              | true => exact Or.inl ⟨rfl, rfl⟩
              | false =>
                  cases topology.getNodeForSlot (keySlot (asBytes key)) with
                  | some owner =>
                      exact Or.inr ⟨_, key, rfl, rfl, moved_answers _ owner⟩
                  | none =>
                      exact Or.inr ⟨_, key, rfl, rfl, clusterDown_answers⟩

theorem execute_answers (config : ConnectionConfig) (moment : Moment)
    (server : ServerState hasher) (rawCmd : Option Bytes)
    (isAuthenticated : Bool) {cmd : Command}
    (notPsync : ∀ replId offset, cmd ≠ .psync replId offset)
    (notAck : ∀ sub args, cmd = .replConf (sub :: args) →
      toAsciiUppercase sub ≠ "ACK") :
    ∃ reply,
      (cmd.execute moment server rawCmd config.requirepass
        isAuthenticated).reply = some reply ∧
      Answers (if isAuthenticated || config.requirepass.isNone then
          (cmd.strayId server.cluster).toList
        else
          []) reply.serialize := by
  have performed := Command.perform_answers moment server rawCmd
    isAuthenticated notPsync notAck
  cases config.requirepass with
  | none =>
      rw [if_pos (by simp)]
      exact performed
  | some pass =>
      cases isAuthenticated with
      | true => exact performed
      | false => exact ⟨_, rfl, Command.guardAuth_answers pass cmd⟩

theorem serve_answers (config : ConnectionConfig) (moment : Moment)
    (server : ServerState hasher) (connection : Connection) (rawCmd : Bytes)
    {cmd : Command} (notPsync : ∀ replId offset, cmd ≠ .psync replId offset)
    (notAck : ∀ sub args, cmd = .replConf (sub :: args) →
      toAsciiUppercase sub ≠ "ACK") :
    ∃ reply,
      (serve config moment server connection rawCmd cmd).connection.sent =
          connection.sent ++ reply ∧
        Answers (repeatedBy config server.cluster connection.isAuthenticated
          cmd) reply := by
  rw [serve, repeatedBy]
  rcases redirect_cases server.cluster connection.isAuthenticated cmd with
    ⟨served, here⟩ | ⟨reply, key, redirected, routed, answers⟩
  · obtain ⟨reply, executed, answers⟩ := execute_answers config moment server
      (some rawCmd) connection.isAuthenticated notPsync notAck
    rw [served, here]
    dsimp only
    rw [executed]
    exact ⟨_, rfl, answers⟩
  · rw [redirected]
    refine ⟨reply, rfl, ?_⟩
    cases owner : foreignOwner server.cluster connection.isAuthenticated cmd with
    | some owner =>
        rw [owner] at answers
        exact answers
    | none =>
        rw [owner] at answers
        rw [Command.strayId_of_targetKey routed]
        rw [Option.toList_none, ite_self]
        exact answers

theorem dispatch_answers (config : ConnectionConfig) (moment : Moment)
    (server : ServerState hasher) (connection : Connection) (rawCmd : Bytes)
    {value : Value} (notPsync : ¬ Command.IsPsync value)
    (notAck : ¬ Command.IsAck value) :
    ∃ reply,
      (dispatch config moment server connection rawCmd value).connection.sent =
          connection.sent ++ reply ∧
        Answers (repeated config server.cluster connection.isAuthenticated
          value) reply := by
  rw [dispatch, repeated]
  split
  next replId offset decoded => exact absurd ⟨replId, offset, decoded⟩ notPsync
  next decoded =>
    rw [decoded]
    dsimp only
    rw [repeatedBy_quit]
    exact ⟨_, rfl, .value Value.plain_ok⟩
  next cmd otherThanPsync otherThanQuit decoded =>
    rw [decoded]
    apply serve_answers
    · rintro replId offset rfl
      exact otherThanPsync replId offset rfl
    · rintro sub args rfl isAck
      exact notAck ⟨sub, args, decoded, isAck⟩
  next reason refused =>
    rw [refused]
    exact ⟨_, rfl, .error (Command.oneLine_refusal refused)⟩

/-- The bytes written for a request are one frame exactly when the texts they
repeat within a line are single lines.  No buffer holds `2 ^ 63` bytes or
more. -/
theorem reply_oneFrame_iff (config : ConnectionConfig) (moment : Moment)
    (server : ServerState hasher) (connection : Connection) (rawCmd : Bytes)
    {value : Value} (notPsync : ¬ Command.IsPsync value)
    (notAck : ¬ Command.IsAck value) :
    ∃ reply,
      (dispatch config moment server connection rawCmd value).connection.sent =
          connection.sent ++ reply ∧
        (reply.length < 2 ^ 63 →
          (OneFrame reply ↔
            ∀ text ∈ repeated config server.cluster connection.isAuthenticated
              value, OneLine text)) := by
  obtain ⟨reply, written, answers⟩ := dispatch_answers config moment server
    connection rawCmd notPsync notAck
  exact ⟨reply, written, answers.oneFrame_iff⟩

/-- A request of an unknown name that is a single line. -/
theorem reply_oneFrame_iff_unknownCommand :
    let server : ServerState fun _ => 0 :=
      ⟨.withConfig _ 1 0, .newMaster none, fun _ => none, none⟩
    let value := Value.bulkArray [asBytes "NOPE"]
    (dispatch ⟨none, 1024, 0⟩ ⟨fun _ => 0, .front⟩ server
        (Connection.new ⟨none, 1024, 0⟩) value.serialize
        value).connection.sent = asBytes "-ERR unknown command 'NOPE'\r\n" ∧
      OneFrame (asBytes "-ERR unknown command 'NOPE'\r\n") := by
  intro server value
  have refused : Command.fromValue value =
      .error "unknown command 'NOPE'" := by decide +kernel
  have sent : (dispatch ⟨none, 1024, 0⟩ ⟨fun _ => 0, .front⟩ server
      (Connection.new ⟨none, 1024, 0⟩) value.serialize
      value).connection.sent = asBytes "-ERR unknown command 'NOPE'\r\n" := by
    decide +kernel
  have notPsync : ¬ Command.IsPsync value := by
    rintro ⟨replId, offset, decoded⟩
    rw [refused] at decoded
    cases decoded
  have notAck : ¬ Command.IsAck value := by
    rintro ⟨sub, args, decoded, -⟩
    rw [refused] at decoded
    cases decoded
  obtain ⟨reply, written, single⟩ := reply_oneFrame_iff ⟨none, 1024, 0⟩
    ⟨fun _ => 0, .front⟩ server (Connection.new ⟨none, 1024, 0⟩)
    value.serialize notPsync notAck
  have same : asBytes "-ERR unknown command 'NOPE'\r\n" = reply :=
    sent.symm.trans written
  refine ⟨sent, ?_⟩
  rw [same]
  refine (single ?_).mpr ?_
  · rw [← same]
    decide +kernel
  · decide +kernel

/-- The name of an unknown command ends the error and begins a second reply. -/
theorem unknown_name_splits_reply :
    let config : ConnectionConfig := ⟨none, 1024, 0⟩
    let server : ServerState fun _ => 0 :=
      ⟨.withConfig _ 1 0, .newMaster none, fun _ => none, none⟩
    let request := Value.bulkArray [asBytes "A\r\n+B"]
    let reply := asBytes "-ERR unknown command 'A\r\n+B'\r\n"
    (runActions (Session.step config) (Session.start config server)
        [.read request.serialize, .process ⟨fun _ => 0, .front⟩]).map
          (fun session => (session.connection.handled.map Prod.snd,
            session.connection.sent)) = some ([request], reply) ∧
      Value.parse reply =
        (.ok (some (.error "ERR unknown command 'A")), asBytes "+B'\r\n") ∧
      Value.parse (asBytes "+B'\r\n") =
        (.ok (some (.simpleString "B'")), []) ∧
      ¬ OneFrame reply := by
  intro config server request reply
  have first : Value.parse reply =
      (.ok (some (.error "ERR unknown command 'A")), asBytes "+B'\r\n") := by
    decide +kernel
  refine ⟨by decide +kernel, first, by decide +kernel, ?_⟩
  rintro ⟨value, parsed⟩
  have alone := parsed []
  rw [List.append_nil, first] at alone
  have nothingLeft : asBytes "+B'\r\n" = [] := congrArg Prod.snd alone
  exact absurd nothingLeft (by decide)

end Connection

end RustiCache
