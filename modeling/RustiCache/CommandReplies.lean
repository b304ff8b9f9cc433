import RustiCache.CommandExecution
import RustiCache.RequestRefusals
import RustiCache.SlotAssignment

/-!
# Replies to commands

Every command but `PSYNC` and `REPLCONF ACK` is answered with one value or one
error.  The only text from outside in such an error is the id of this node, when
it asks for slots and its table has no node of that id.
-/

namespace RustiCache

open Value (OneLine Answers)

namespace ClusterTopology

/-- The id under which this node asks for slots, if its table has no such
node. -/
def strayId (topology : ClusterTopology) (slots : List UInt16) :
    Option String :=
  match slots, topology.myself with
  | slot :: _, some me =>
      if slot < hashSlots ∧ (AList.lookup me.id topology.nodes).isNone then
        some me.id
      else
        none
  | _, _ => none

theorem oneLine_invalidRange (start last : UInt16) :
    OneLine s!"Invalid slot range {start}-{last}" := by
  have first := return_not_mem_decimal start.toNat
  have second := return_not_mem_decimal last.toNat
  have noReturn : (13 : UInt8) ∉ asBytes ("Invalid slot range " ++
      toString start.toNat ++ "-" ++ toString last.toNat) := by
    simp only [asBytes_append, List.mem_append, not_or]
    exact ⟨⟨⟨by decide, first⟩, by decide⟩, second⟩
  exact Value.oneLine_of_not_mem noReturn

/-- A node in the table stays there, and is given every slot there is. -/
theorem addSlotsRange_of_stored {topology : ClusterTopology} {nodeId : String}
    (stored : (AList.lookup nodeId topology.nodes).isSome = true)
    (start last : UInt16) :
    topology.addSlotsRange nodeId start last =
        .error s!"Invalid slot range {start}-{last}" ∨
      ∃ next, topology.addSlotsRange nodeId start last = .ok next ∧
        (AList.lookup nodeId next.nodes).isSome = true := by
  obtain ⟨node, found⟩ := Option.isSome_iff_exists.mp stored
  rw [addSlotsRange]
  split
  · exact Or.inl rfl
  · rw [found]
    refine Or.inr ⟨_, rfl, ?_⟩
    rw [Table.lookup_replace nodeId _ found, if_pos rfl]
    rfl

theorem addSlots_answers_of_stored (slots : List UInt16)
    {topology : ClusterTopology} {nodeId : String}
    (stored : (AList.lookup nodeId topology.nodes).isSome = true) :
    Answers [] (Command.addSlots nodeId slots topology).1.serialize := by
  induction slots generalizing topology with
  | nil => exact .value Value.plain_ok
  | cons slot slots ih =>
      rw [Command.addSlots]
      rcases addSlotsRange_of_stored stored slot slot with
        refused | ⟨next, added, kept⟩
      · rw [refused]
        exact .fixed (oneLine_invalidRange slot slot)
      · rw [added]
        exact ih kept

theorem addSlots_answers {topology : ClusterTopology} {me : ClusterNode}
    (found : topology.myself = some me) (slots : List UInt16) :
    Answers (topology.strayId slots).toList
      (Command.addSlots me.id slots topology).1.serialize := by
  cases slots with
  | nil => exact .value Value.plain_ok
  | cons slot slots =>
      simp only [strayId, found]
      cases lookup : AList.lookup me.id topology.nodes with
      | some node =>
          rw [if_neg (by simp)]
          exact addSlots_answers_of_stored (slot :: slots) (by rw [lookup]; rfl)
      | none =>
          rw [Command.addSlots]
          cases valid : validRange slot slot with
          | false =>
              rw [addSlotsRange_of_invalid valid, if_neg]
              · exact .fixed (oneLine_invalidRange slot slot)
              · rintro ⟨within, -⟩
                simp [validRange, within] at valid
          | true =>
              rw [addSlotsRange_of_unknown valid lookup, if_pos]
              · apply Answers.error
                refine (Value.oneLine_append_left (by decide) me.id).trans ?_
                simp
              · simpa [validRange] using valid

theorem plain_formatSlotRange (range : SlotRange) :
    (formatSlotRange range).Plain := by
  have master : ∀ node : ClusterNode, (Value.array (some [Value.string node.ip,
      Value.integer (Int64.ofNat node.port.toNat),
      Value.string node.id])).Plain := by
    intro node
    apply Value.Plain.array
    simp only [List.forall_mem_cons]
    exact ⟨Value.plain_string _, .integer _, Value.plain_string _, by simp⟩
  apply Value.Plain.array
  simp only [List.forall_mem_cons]
  exact ⟨.integer _, .integer _, master _, by simp⟩

end ClusterTopology

namespace Command

variable {hasher : String → UInt64}

def strayId (cluster : Option ClusterTopology) : Command → Option String
  | .cluster (.addSlots slots) =>
      cluster.bind fun topology => topology.strayId slots
  | _ => none

theorem strayId_of_targetKey {cmd : Command} {key : String}
    (routed : cmd.targetKey = some key) (cluster : Option ClusterTopology) :
    cmd.strayId cluster = none := by
  cases cmd with
  | cluster subcommand => cases routed
  | _ => rfl

theorem executeCluster_answers (hasher : String → UInt64)
    (arrangement : Arrangement) (topology : ClusterTopology)
    (subcommand : ClusterSubcommand) :
    Answers (strayId (some topology) (.cluster subcommand)).toList
      (executeCluster hasher arrangement topology subcommand).1.serialize := by
  cases subcommand with
  | keySlot key => exact .value (.integer _)
  | info => exact .value (Value.plain_string _)
  | nodes => exact .value (Value.plain_string _)
  | slots =>
      refine .value (.array fun item member => ?_)
      obtain ⟨range, -, rfl⟩ := List.mem_map.mp member
      exact ClusterTopology.plain_formatSlotRange range
  | meet ip port => exact .value Value.plain_ok
  | addSlots slots =>
      rw [executeCluster, strayId, Option.bind_some]
      cases found : topology.myself with
      | some me => exact ClusterTopology.addSlots_answers found slots
      | none =>
          have none : topology.strayId slots = none := by
            unfold ClusterTopology.strayId
            rw [found]
            cases slots <;> rfl
          rw [none]
          exact .value Value.plain_ok

theorem executeReplConf_answers (replState : ReplicationState)
    {args : List String} (notAck : ∀ sub ∈ args.head?,
      toAsciiUppercase sub ≠ "ACK") :
    ∃ reply, executeReplConf replState args = some reply ∧
      Answers [] reply.serialize := by
  cases args with
  | nil => exact ⟨_, rfl, .fixed (by decide +kernel)⟩
  | cons sub args =>
      rw [executeReplConf]
      split
      · refine ⟨_, rfl, .value (.array ?_)⟩
        simp only [List.forall_mem_cons]
        exact ⟨Value.plain_string _, Value.plain_string _,
          Value.plain_string _, by simp⟩
      · rw [if_neg (notAck sub rfl)]
        exact ⟨_, rfl, .value Value.plain_ok⟩

/-- Every command but the acknowledgement is answered. -/
theorem perform_answers (moment : Moment) (server : ServerState hasher)
    (rawCmd : Option Bytes) (isAuthenticated : Bool) {cmd : Command}
    (notPsync : ∀ replId offset, cmd ≠ .psync replId offset)
    (notAck : ∀ sub args, cmd = .replConf (sub :: args) →
      toAsciiUppercase sub ≠ "ACK") :
    ∃ reply,
      (perform moment server rawCmd isAuthenticated cmd).reply = some reply ∧
        Answers (cmd.strayId server.cluster).toList reply.serialize := by
  cases cmd with
  | ping message =>
      cases message with
      | none => exact ⟨_, rfl, .value (.simpleString (by decide))⟩
      | some message => exact ⟨_, rfl, .value (Value.plain_string message)⟩
  | echo message => exact ⟨_, rfl, .value (Value.plain_string message)⟩
  | get key => exact ⟨_, rfl, .value (.bulkString _)⟩
  | set key value pxMs => exact ⟨_, rfl, .value Value.plain_ok⟩
  | del names => exact ⟨_, rfl, .value (.integer _)⟩
  | «exists» names => exact ⟨_, rfl, .value (.integer _)⟩
  | keys pattern =>
      refine ⟨_, rfl, .value (.array fun item member => ?_)⟩
      obtain ⟨key, -, rfl⟩ := List.mem_map.mp member
      exact Value.plain_string key
  | info topic => exact ⟨_, rfl, .value (Value.plain_string _)⟩
  | replConf args =>
      apply executeReplConf_answers
      intro sub isFirst
      cases args with
      | nil => cases isFirst
      | cons first args =>
          cases isFirst
          exact notAck _ args rfl
  | psync replId offset => exact absurd rfl (notPsync replId offset)
  | auth username password => exact ⟨_, rfl, .value Value.plain_ok⟩
  | cluster subcommand =>
      cases member : server.cluster with
      | none =>
          refine ⟨_, by rw [perform, member], ?_⟩
          have nobody : strayId none (.cluster subcommand) = none := by
            cases subcommand <;> rfl
          rw [nobody]
          exact .fixed (by decide +kernel)
      | some topology =>
          refine ⟨_, by rw [perform, member], ?_⟩
          exact executeCluster_answers hasher moment.arrangement topology
            subcommand
  | quit => exact ⟨_, rfl, .value Value.plain_ok⟩
  | command => exact ⟨_, rfl, .value (.array (by simp))⟩

theorem guardAuth_answers (pass : String) (cmd : Command) :
    Answers [] (guardAuth pass cmd).1.serialize := by
  cases cmd with
  | auth username password =>
      rw [guardAuth]
      split
      · exact .value Value.plain_ok
      · exact .fixed (by decide +kernel)
  | quit => exact .value Value.plain_ok
  | _ => exact .fixed (by decide +kernel)

end Command

end RustiCache
