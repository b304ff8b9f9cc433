import RustiCache.FullResync
import RustiCache.RunMoments
import RustiCache.SettledLinks

/-!
# A replica shows a past state of its master

A replica replays the commands of its master one after another, in their order.
If the master executes and propagates one command at a time, then what the replica
stores is never a mixture of different moments: it is what the master stored at
some moment since the replica was registered.
-/

namespace RustiCache

namespace ServerPool

variable {hasher : String → UInt64} {config : PoolConfig}
  {pool next : ServerPool hasher} {action : PoolAction}

theorem length_propagation_le (server : ServerState hasher) (client : Client) :
    (propagation config server client).length ≤ 1 := by
  rw [propagation]
  split
  next rawCmd cmd checked =>
    cases cmd with
    | set | del =>
        rw [Command.propagation]
        split <;> simp
    | _ => simp [Command.propagation]
  next => simp

/-- A step propagates at most one command. -/
theorem propagated_step (taken : pool.step config action = some next) :
    ∃ raws, raws.length ≤ 1 ∧ next.propagated = pool.propagated ++ raws := by
  cases transition_of_step taken with
  | accept | hangUp | fill | forward | purge =>
      exact ⟨[], by simp, (List.append_nil _).symm⟩
  | turn => exact ⟨_, length_propagation_le _ _, rfl⟩
  | propagate rawResp => exact ⟨[rawResp], by simp, rfl⟩

end ServerPool

/-- A store without keys in its shards is empty. -/
theorem Db.contents_of_vacant {hasher : String → UInt64} {db : Db hasher}
    (vacant : db.shards.flatMap AList.keys = []) :
    db.contents = TimedMap.empty := by
  funext key
  rw [contents, find, shard]
  have index := db.shardIndex_lt key
  rw [List.getD, List.getElem?_eq_getElem index, Option.getD_some]
  have bare := List.flatMap_eq_nil_iff.mp vacant _ (List.getElem_mem index)
  have missing : key ∉ db.shards[db.shardIndex key] := by
    rw [AList.mem_keys, bare]
    exact List.not_mem_nil
  rw [AList.lookup_eq_none.mpr missing]
  rfl

namespace ReplicatedPool

variable {hasher replicaHasher : String → UInt64} {config : PoolConfig}
  {server : ServerState hasher}
  {system next : ReplicatedPool hasher replicaHasher} {channel : ChannelId}

theorem log_grows {action : ReplicationAction replicaHasher}
    (taken : system.step config action = some next) :
    ∃ raws, raws.length ≤ 1 ∧
      next.pool.propagated = system.pool.propagated ++ raws := by
  rcases pool_of_step taken with same | ⟨poolAction, -, acted⟩
  · exact ⟨[], by simp, by rw [same, List.append_nil]⟩
  · exact ServerPool.propagated_step acted

namespace Registers

variable {moment : Moment}
  (registers : Registers config system channel moment next)

include registers

/-- The step that registers a replica sets no expiry. -/
theorem withoutExpiry :
    WithoutExpiry system (.master (.process channel moment)) := by
  intro client rawCmd key value pxMs found stage
  obtain ⟨⟨registering, isFound, transferred, -⟩, -⟩ := registers
  cases isFound.symm.trans found
  cases transferred.symm.trans stage

/-- It changes neither the log nor the store, and leaves the replicas alone. -/
theorem keeps :
    next.pool.propagated = system.pool.propagated ∧
      next.pool.server.db = system.pool.server.db ∧
      next.attachments = system.attachments := by
  obtain ⟨⟨client, found, stage, -⟩, taken⟩ := registers
  obtain ⟨pool, acted, rfl⟩ := Option.map_eq_some_iff.mp taken
  have nothing : ServerPool.propagation config system.pool.server client = [] :=
    ServerPool.propagation_eq_nil stage (by simp)
  simp only [ServerPool.step, found, Option.bind_some] at acted
  split at acted
  next =>
    cases acted
    refine ⟨?_, ?_, rfl⟩
    · simp only [nothing, List.append_nil]
    · simp only [stage]
      rfl
  next => cases acted

/-- Before it, the replica has handled nothing. -/
theorem handled_nil (inTouch : InTouch server system)
    {attachment : Attachment replicaHasher}
    (attached : system.attachments channel = some attachment) :
    attachment.follower.handled = [] := by
  obtain ⟨⟨client, found, -, unregistered⟩, taken⟩ := registers
  obtain ⟨pool, acted, -⟩ := Option.map_eq_some_iff.mp taken
  simp only [ServerPool.step, found, Option.bind_some] at acted
  split at acted
  next draining =>
    refine inTouch.handled_nil found ?_ unregistered attached
    rw [draining]
    decide
  next => cases acted

end Registers

/-- **A replica shows a past state of its master.**  The master executes and
propagates one command at a time, and no key expires.  If the two stored the same
when the replica was registered, what the replica stores as long as its connection
is open is what the master stored at a moment since, when it had propagated just
what the replica has handled. -/
theorem shows_past_state
    (nobody : server.replState.downstreamSenders = [])
    (nonempty : server.replState.masterReplid ≠ "")
    (solid : ∀ character ∈ server.replState.masterReplid.toList,
      isWhitespace character = false)
    (master : server.replState.isReplica = false)
    (unbounded : server.db.maxMemoryBytes = 0)
    (lasting : server.db.contents.Lasting)
    {middle registered final : ReplicatedPool hasher replicaHasher}
    {past later : List (ReplicationAction replicaHasher)}
    (before : Reaches (step config) WithoutExpiry (start server) past middle)
    {first : Attachment replicaHasher}
    (attached : middle.attachments channel = some first)
    (agreed : first.follower.server.db.contents =
      middle.pool.server.db.contents)
    {moment : Moment}
    (registers : Registers config middle channel moment registered)
    (after : Reaches (step config) WithoutExpiry registered later final)
    {client : Client} (found : final.pool.clients channel = some client)
    (stillOpen : client.connection.phase ≠ .closed)
    {attachment : Attachment replicaHasher}
    (isLast : final.attachments channel = some attachment) :
    Sometime (step config) WithoutExpiry registered later fun state =>
      state.pool.propagated = middle.pool.propagated ++
          attachment.follower.handled.map Prod.fst ∧
        state.pool.server.db.contents =
          attachment.follower.server.db.contents := by
  have early : Mirroring server server.db.contents [] (fun _ => True) channel
      middle :=
    mirroring_of_reaches nonempty solid master
      (mirroring_start nobody unbounded lasting) before
  have rebased := mirroring_step nonempty solid master
    (early.register registers attached) registers.withoutExpiry registers.2
  have late := mirroring_of_reaches nonempty solid master rebased after
  have handled := late.inTouch.handled_first
    (registeredAfter_of_reaches registers.registeredAfter after) found stillOpen
    isLast
  have within : middle.pool.propagated ++
      attachment.follower.handled.map Prod.fst <+: final.pool.propagated := by
    obtain ⟨rest, whole⟩ := late.relayed.earlier
    rw [← whole, List.drop_left] at handled
    rw [← whole]
    exact (List.prefix_append_right_inj _).mpr handled
  obtain ⟨moments, state, inside, reached, log⟩ := after.sometime_log
    (fun system => system.pool.propagated) log_grows
    (registers.keeps.1 ▸ List.prefix_append _ _) within
  refine ⟨moments, state, inside, reached, log, ?_⟩
  -- both sides apply the same writes to the same contents
  have shown := (mirroring_of_reaches nonempty solid master rebased
    reached).relayed.contents
  obtain ⟨_, rfl, mirrored⟩ :=
    late.mirroredAt client attachment found stillOpen isLast
  rw [shown, log, List.drop_left, List.flatMap_map, mirrored.contents, agreed]

/-- A client of the master deletes the key that the replica has got. -/
def deleteActions : List (ReplicationAction fun _ => 0) :=
  let moment : Moment := ⟨fun _ => 0, .front⟩
  [.master (.process 1 moment),
    .master (.read 1 (asBytes "*2\r\n$3\r\nDEL\r\n$1\r\nk\r\n")),
    .master (.process 1 moment), .master (.process 1 moment)]

/-- The replica still has a key that its master has deleted. -/
theorem shows_past_state_deletion :
    ∃ middle registered final : ReplicatedPool (fun _ => 0) fun _ => 0,
      ∃ first attachment, Reaches (step ⟨none, 1024⟩) WithoutExpiry
          (start ServerPool.emptyMaster) attachActions middle ∧
        middle.attachments 0 = some first ∧
        first.follower.server.db.contents = middle.pool.server.db.contents ∧
        Registers ⟨none, 1024⟩ middle 0 ⟨fun _ => 0, .front⟩ registered ∧
        Reaches (step ⟨none, 1024⟩) WithoutExpiry registered
          (.master (.process 0 ⟨fun _ => 0, .front⟩) :: (writeActions ++
            .master (.replicate 0) :: catchUpActions 176 1 ++
            deleteActions)) final ∧
        final.attachments 0 = some attachment ∧
        final.pool.server.db.contents "k" = none ∧
        attachment.follower.server.db.contents "k" =
          some (asBytes "v", none) ∧
        Sometime (step ⟨none, 1024⟩) WithoutExpiry registered
          (.master (.process 0 ⟨fun _ => 0, .front⟩) :: (writeActions ++
            .master (.replicate 0) :: catchUpActions 176 1 ++
            deleteActions)) fun state =>
          state.pool.propagated = middle.pool.propagated ++
              attachment.follower.handled.map Prod.fst ∧
            state.pool.server.db.contents =
              attachment.follower.server.db.contents := by
  have ran : ((runActions checkedStep (start ServerPool.emptyMaster)
      attachActions).bind fun middle => (middle.attachments 0).bind fun first =>
        if (middle.pool.clients 0).map (fun client =>
              (client.stage, client.registered)) =
            some (.transferred, none) ∧
            first.follower.server.db.shards.flatMap AList.keys = [] ∧
            middle.pool.server.db.shards.flatMap AList.keys = [] then
          (middle.step ⟨none, 1024⟩
            (.master (.process 0 ⟨fun _ => 0, .front⟩))).bind fun registered =>
              (runActions checkedStep registered
                (.master (.process 0 ⟨fun _ => 0, .front⟩) :: (writeActions ++
                  .master (.replicate 0) :: catchUpActions 176 1 ++
                  deleteActions))).bind fun final =>
                (final.pool.clients 0).bind fun client =>
                  (final.attachments 0).map fun attachment => decide (
                    client.connection.phase ≠ .closed ∧
                      final.pool.server.db.contents "k" = none ∧
                      attachment.follower.server.db.contents "k" =
                        some (asBytes "v", none))
        else none) = some true := by
    decide +kernel
  obtain ⟨middle, begins, rest⟩ := Option.bind_eq_some_iff.mp ran
  obtain ⟨first, attached, rest⟩ := Option.bind_eq_some_iff.mp rest
  split at rest
  next checked =>
    obtain ⟨fields, bare, vacant⟩ := checked
    obtain ⟨registered, taken, rest⟩ := Option.bind_eq_some_iff.mp rest
    obtain ⟨final, last, rest⟩ := Option.bind_eq_some_iff.mp rest
    obtain ⟨client, found, rest⟩ := Option.bind_eq_some_iff.mp rest
    obtain ⟨attachment, isLast, shown⟩ := Option.map_eq_some_iff.mp rest
    obtain ⟨stillOpen, deleted, stored⟩ := of_decide_eq_true shown
    obtain ⟨registering, isFound, stages⟩ := Option.map_eq_some_iff.mp fields
    simp only [Prod.mk.injEq] at stages
    have before := reaches_of_unexpiring begins
    have after := reaches_of_unexpiring last
    have agreed : first.follower.server.db.contents =
        middle.pool.server.db.contents := by
      rw [Db.contents_of_vacant bare, Db.contents_of_vacant vacant]
    have registers : Registers ⟨none, 1024⟩ middle 0 ⟨fun _ => 0, .front⟩
        registered :=
      ⟨⟨registering, isFound, stages.1, stages.2⟩, taken⟩
    have lasting : ServerPool.emptyMaster.db.contents.Lasting := by
      rw [ServerPool.emptyMaster, Db.contents_withConfig]
      intro key value deadline bound
      cases bound
    refine ⟨middle, registered, final, first, attachment, before, attached,
      agreed, registers, after, isLast, deleted, stored, ?_⟩
    exact shows_past_state rfl (by decide) (solid_of_all _ (by decide)) rfl rfl
      lasting before attached agreed registers after found stillOpen isLast
  next => cases rest

end ReplicatedPool

end RustiCache
