import RustiCache.HandshakeWires

/-!
# The turns of the handshake

At any moment of the handshake there is at most one command under way.  It is
the replica's turn to send a command, the command is on its way, or its reply
is.
-/

namespace RustiCache

/-- A bound on the turns left before the stream starts. -/
def HandshakeStage.distance : HandshakeStage → Nat
  | sending _ later => 2 * later.length + 5
  | awaiting _ later => 2 * later.length + 4
  | rdbHeader => 2
  | rdbPayload _ => 1
  | streaming => 0
  | failed _ => 0

namespace ReplicationLink

variable (config : ConnectionConfig)

/-- How far the replica has come in the reply to `PSYNC`. -/
inductive Resync (replid : String) (replica : ReplicaTask) : Bytes → Prop where
  | line (stage : replica.stage = .awaiting .psync []) :
      Resync replid replica
        (resyncLine replid ++ (snapshotHeader ++ getEmptyRdbBytes))
  | header (stage : replica.stage = .rdbHeader)
      (learned : replica.replState.masterReplid = replid) :
      Resync replid replica (snapshotHeader ++ getEmptyRdbBytes)
  | payload (stage : replica.stage = .rdbPayload getEmptyRdbBytes.length)
      (learned : replica.replState.masterReplid = replid) :
      Resync replid replica getEmptyRdbBytes
  | streaming (stage : replica.stage = .streaming)
      (learned : replica.replState.masterReplid = replid) :
      Resync replid replica []

/-- Whose turn it is, and what has been asked, answered and read so far. -/
inductive Turn (commands : List HandshakeCommand) (replid : String)
    (replica : ReplicaTask) (answers : List (Bytes × Bytes))
    (isDownstreamReplica : Bool) : Bytes → Bytes → Prop where
  | sending {past later : List HandshakeCommand} {cmd : HandshakeCommand}
      (split : commands = past ++ cmd :: later)
      (stage : replica.stage = .sending cmd later)
      (covered : answers.map Prod.fst = past.map HandshakeCommand.bytes)
      (exactly : replica.reads = answers)
      (unregistered : isDownstreamReplica = false) :
      Turn commands replid replica answers isDownstreamReplica [] []
  | asking {past later : List HandshakeCommand} {cmd : HandshakeCommand}
      (split : commands = past ++ cmd :: later)
      (stage : replica.stage = .awaiting cmd later)
      (covered : answers.map Prod.fst = past.map HandshakeCommand.bytes)
      (reads : replica.reads = answers ++ [(cmd.bytes, [])])
      (unregistered : isDownstreamReplica = false) :
      Turn commands replid replica answers isDownstreamReplica cmd.bytes []
  | answered {past later : List HandshakeCommand} {cmd : HandshakeCommand}
      {before : List (Bytes × Bytes)} {reply : Bytes}
      (split : commands = past ++ cmd :: later)
      (simple : cmd ≠ .psync) (line : IsLine reply)
      (stage : replica.stage = .awaiting cmd later)
      (covered : before.map Prod.fst = past.map HandshakeCommand.bytes)
      (replies : answers = before ++ [(cmd.bytes, reply)])
      (reads : replica.reads = before ++ [(cmd.bytes, [])])
      (unregistered : isDownstreamReplica = false) :
      Turn commands replid replica answers isDownstreamReplica [] reply
  | resyncing {before : List (Bytes × Bytes)} {consumed owed : Bytes}
      (covered : answers.map Prod.fst = commands.map HandshakeCommand.bytes)
      (replies : answers =
        before ++ [(HandshakeCommand.psync.bytes, consumed ++ owed)])
      (reads : replica.reads =
        before ++ [(HandshakeCommand.psync.bytes, consumed)])
      (isRegistered : isDownstreamReplica = true)
      (resync : Resync replid replica owed) :
      Turn commands replid replica answers isDownstreamReplica [] owed

/-- What the master and the replica may assume of their configuration: every
command fits into the payload bound, passwords are texts that memory can hold,
and the replication id is a word. -/
structure Admissible (masterauth : Option String) (myPort : UInt16)
    (replid : String) : Prop where
  fits : ∀ cmd ∈ HandshakeCommand.handshake masterauth myPort,
    cmd.bytes.length ≤ config.maxPayloadSize
  storable : ∀ pass ∈ masterauth, (asBytes pass).length < 2 ^ 63
  nonempty : replid ≠ ""
  solid : ∀ character ∈ replid.toList, isWhitespace character = false

variable {config}

theorem Resync.refill {replid : String} {replica : ReplicaTask} {owed : Bytes}
    (resync : Resync replid replica owed) (buffer : Bytes) :
    Resync replid { replica with buffer := buffer } owed := by
  cases resync with
  | line stage => exact .line stage
  | header stage learned => exact .header stage learned
  | payload stage learned => exact .payload stage learned
  | streaming stage learned => exact .streaming stage learned

/-- The replica is to send a command: the earlier ones have been answered. -/
theorem Turn.of_sending {commands later : List HandshakeCommand}
    {replid : String} {replica : ReplicaTask} {answers : List (Bytes × Bytes)}
    {isDownstreamReplica : Bool} {asked owed : Bytes} {cmd : HandshakeCommand}
    (turn : Turn commands replid replica answers isDownstreamReplica asked owed)
    (stage : replica.stage = .sending cmd later) :
    (∃ past, commands = past ++ cmd :: later ∧
      answers.map Prod.fst = past.map HandshakeCommand.bytes) ∧
    replica.reads = answers ∧ isDownstreamReplica = false ∧
      asked = [] ∧ owed = [] := by
  cases turn with
  | @sending past _ _ split turnStage covered exactly unregistered =>
      rw [stage] at turnStage
      cases turnStage
      exact ⟨⟨past, split, covered⟩, exactly, unregistered, rfl, rfl⟩
  | asking split turnStage =>
      rw [stage] at turnStage
      cases turnStage
  | answered split simple line turnStage =>
      rw [stage] at turnStage
      cases turnStage
  | resyncing covered replies reads isRegistered resync =>
      cases resync <;> simp_all

/-- Whose turn it is does not depend on the replica's buffer. -/
theorem Turn.refill {commands : List HandshakeCommand} {replid : String}
    {replica : ReplicaTask} {answers : List (Bytes × Bytes)}
    {isDownstreamReplica : Bool} {asked owed : Bytes}
    (turn : Turn commands replid replica answers isDownstreamReplica asked owed)
    (buffer : Bytes) :
    Turn commands replid { replica with buffer := buffer } answers
      isDownstreamReplica asked owed := by
  cases turn with
  | sending split stage covered exactly unregistered =>
      exact .sending split stage covered exactly unregistered
  | asking split stage covered reads unregistered =>
      exact .asking split stage covered reads unregistered
  | answered split simple line stage covered replies reads unregistered =>
      exact .answered split simple line stage covered replies reads unregistered
  | resyncing covered replies reads isRegistered resync =>
      exact .resyncing covered replies reads isRegistered (resync.refill buffer)

theorem credit_snoc (consumed cmd earlier : Bytes)
    (before : List (Bytes × Bytes)) :
    ReplicaTask.credit consumed (before ++ [(cmd, earlier)]) =
      before ++ [(cmd, earlier ++ consumed)] := by
  simp [ReplicaTask.credit]

/-- The reply to `PSYNC` is read part by part up to the start of the stream. -/
theorem Resync.next {replid : String} (nonempty : replid ≠ "")
    (solid : ∀ character ∈ replid.toList, isWhitespace character = false)
    {replica : ReplicaTask} {owed : Bytes}
    (resync : Resync replid replica owed) :
    (replica.stage = .streaming ∧ owed = []) ∨
      ∃ piece later stage replState, owed = piece ++ later ∧
        stage.distance < replica.stage.distance ∧
        replica.ReadsOff piece stage replState ∧
        (∀ buffer reads, Resync replid ⟨stage, buffer, replState, reads⟩
          later) ∧
        replState.replicaBytesProcessed =
          replica.replState.replicaBytesProcessed := by
  cases resync with
  | line stage =>
      right
      exact ⟨_, _, _, _, rfl, by rw [stage]; decide,
        ReplicaTask.readsOff_fullresync stage nonempty solid,
        fun buffer reads => .header rfl rfl, rfl⟩
  | header stage learned =>
      right
      exact ⟨_, _, _, _, rfl, by rw [stage]; exact Nat.one_lt_two,
        ReplicaTask.readsOff_header stage,
        fun buffer reads => .payload rfl learned, rfl⟩
  | payload stage learned =>
      right
      exact ⟨_, _, _, _, (List.append_nil _).symm,
        by rw [stage]; exact Nat.one_pos,
        ReplicaTask.readsOff_payload stage,
        fun buffer reads => .streaming rfl learned, rfl⟩
  | streaming stage learned => exact .inl ⟨stage, rfl⟩

theorem send_cases {task replica : ReplicaTask} {bytes : Bytes}
    (sent : task.send = some (bytes, replica)) :
    ∃ cmd later, task.stage = .sending cmd later ∧ bytes = cmd.bytes ∧
      replica =
        { task with
          stage := .awaiting cmd later
          reads := task.reads ++ [(cmd.bytes, [])] } := by
  rw [ReplicaTask.send] at sent
  split at sent
  next cmd later stage =>
    cases sent
    exact ⟨cmd, later, stage, rfl, rfl⟩
  next => cases sent

/-- The replica does not go on without a reply. -/
theorem advance_nil {task : ReplicaTask} {cmd : HandshakeCommand}
    {later : List HandshakeCommand}
    (stage : task.stage = .awaiting cmd later) (empty : task.buffer = []) :
    task.advance = none := by
  have missing : Value.getLine task.buffer = none := by
    rw [empty]
    rfl
  cases cmd with
  | psync =>
      simp only [ReplicaTask.advance, stage, ReplicaTask.readFullresyncResponse,
        missing, Option.map_none]
  | _ =>
      simp only [ReplicaTask.advance, stage, ReplicaTask.readSimpleResponse,
        missing, Option.map_none]

theorem receive_cases {task replica : ReplicaTask} {chunk : Bytes}
    (nonempty : chunk ≠ []) (received : task.receive chunk = some replica) :
    replica = { task with buffer := task.buffer ++ chunk } := by
  rw [ReplicaTask.receive] at received
  split at received
  next =>
    rw [if_neg nonempty] at received
    cases received
    rfl
  next => cases received

/-- The replica never gives up. -/
theorem Turn.not_failed {commands : List HandshakeCommand} {replid : String}
    {replica : ReplicaTask} {answers : List (Bytes × Bytes)}
    {isDownstreamReplica : Bool} {asked owed : Bytes}
    (turn : Turn commands replid replica answers isDownstreamReplica asked owed)
    (reason : String) : replica.stage ≠ .failed reason := by
  cases turn with
  | sending split stage =>
      rw [stage]
      nofun
  | asking split stage =>
      rw [stage]
      nofun
  | answered split simple line stage =>
      rw [stage]
      nofun
  | resyncing covered replies reads isRegistered resync =>
      cases resync with
      | line stage =>
          rw [stage]
          nofun
      | header stage =>
          rw [stage]
          nofun
      | payload stage =>
          rw [stage]
          nofun
      | streaming stage =>
          rw [stage]
          nofun

end ReplicationLink

end RustiCache
