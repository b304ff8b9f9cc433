import Mathlib.Algebra.GroupWithZero.Nat
import RustiCache.ActionRuns
import RustiCache.ReplicationState

/-!
# Counting replicas

The replication state keeps the senders of the registered connections and, next
to them, their number.  A sender whose connection is gone is dropped by the next
propagation, and the number is not told.
-/

namespace RustiCache

/-- The replication state and the channels behind its senders. -/
structure ReplicaRegistry where
  replState : ReplicationState
  channels : Channels

inductive RegistryAction where
  | register (tx : ChannelId)
  | close (tx : ChannelId)
  | propagate (rawResp : Bytes)

namespace RegistryAction

def isRegister : RegistryAction → Bool
  | register _ => true
  | _ => false

/-- How often a connection is registered. -/
def registrations (actions : List RegistryAction) : Nat :=
  actions.countP isRegister

end RegistryAction

namespace ReplicaRegistry

def step (registry : ReplicaRegistry) :
    RegistryAction → Option ReplicaRegistry
  | .register tx =>
      some { registry with
        replState := registry.replState.registerDownstream tx }
  | .close tx =>
      some { registry with
        channels := Function.update registry.channels tx none }
  | .propagate rawResp =>
      let (replState, channels) :=
        registry.replState.propagateDownstream registry.channels rawResp
      some ⟨replState, channels⟩

/-- No registered connection is gone when something is propagated. -/
def NoneGone (registry : ReplicaRegistry) : RegistryAction → Prop
  | .propagate _ =>
      ∀ tx ∈ registry.replState.downstreamSenders, registry.channels tx ≠ none
  | _ => True

/-- The number of replicas is the number of senders. -/
def Counted (registry : ReplicaRegistry) : Prop :=
  registry.replState.connectedReplicas.toNat =
    registry.replState.downstreamSenders.length

theorem register_counts {registry : ReplicaRegistry} (tx : ChannelId)
    (room : registry.replState.connectedReplicas.toNat + 1 < 2 ^ 64) :
    (registry.replState.registerDownstream tx).connectedReplicas.toNat =
      registry.replState.connectedReplicas.toNat + 1 := by
  rw [ReplicationState.registerDownstream, UInt64.toNat_add]
  exact Nat.mod_eq_of_lt room

/-- A propagation drops as many senders as have lost their receiver. -/
theorem propagate_length_eq_iff {registry : ReplicaRegistry} (rawResp : Bytes) :
    (ReplicationState.retainSending rawResp
        registry.replState.downstreamSenders registry.channels).1.length =
        registry.replState.downstreamSenders.length ↔
      NoneGone registry (.propagate rawResp) := by
  rw [ReplicationState.retainSending_kept, List.length_filter_eq_length_iff]
  constructor
  · intro alive tx member gone
    have present := alive tx member
    rw [gone] at present
    cases present
  · intro present tx member
    exact Option.isSome_iff_ne_none.mpr (present tx member)

/-- The count only ever runs ahead of the senders, and it does so from the first
propagation that finds a connection gone. -/
theorem bounds_of_reaches {first registry : ReplicaRegistry}
    {actions : List RegistryAction}
    (noReplicas : first.replState.connectedReplicas = 0)
    (noSenders : first.replState.downstreamSenders = [])
    (reaches : Reaches step (fun _ _ => True) first actions registry)
    (few : RegistryAction.registrations actions < 2 ^ 64) :
    registry.replState.downstreamSenders.length ≤
        registry.replState.connectedReplicas.toNat ∧
      registry.replState.connectedReplicas.toNat ≤
        RegistryAction.registrations actions ∧
      (registry.Counted ↔ Reaches step NoneGone first actions registry) := by
  induction reaches with
  | refl =>
      rw [Counted, noReplicas, noSenders]
      refine ⟨Nat.le_refl _, Nat.le_refl _, ?_⟩
      exact ⟨fun _ => .refl first, fun _ => rfl⟩
  | @snoc state next actions action before _ taken ih =>
      rw [RegistryAction.registrations, List.countP_append,
        ← RegistryAction.registrations] at few ⊢
      obtain ⟨ahead, bounded, iff⟩ := ih (by omega)
      rw [before.snoc_iff taken, ← iff]
      cases action with
      | register tx =>
          cases taken
          have more : [RegistryAction.register tx].countP
              RegistryAction.isRegister = 1 := rfl
          rw [more] at few ⊢
          have room : state.replState.connectedReplicas.toNat + 1 < 2 ^ 64 := by
            omega
          have counts := register_counts tx room
          have grows : (state.replState.registerDownstream
              tx).downstreamSenders.length =
                state.replState.downstreamSenders.length + 1 := by
            rw [ReplicationState.registerDownstream, List.length_append]
            rfl
          simp only [Counted, counts, grows, NoneGone, and_true]
          omega
      | close tx =>
          cases taken
          simp only [Counted, NoneGone, and_true]
          omega
      | propagate rawResp =>
          cases taken
          have shrinks : (ReplicationState.retainSending rawResp
              state.replState.downstreamSenders state.channels).1.length ≤
                state.replState.downstreamSenders.length := by
            rw [ReplicationState.retainSending_kept]
            exact List.length_filter_le _ _
          rw [← propagate_length_eq_iff]
          simp only [Counted]
          omega

/-- The number of replicas is right in exactly those states before which every
propagation has found all registered connections alive. -/
theorem counted_iff_noneGone {first registry : ReplicaRegistry}
    {actions : List RegistryAction}
    (noReplicas : first.replState.connectedReplicas = 0)
    (noSenders : first.replState.downstreamSenders = [])
    (few : RegistryAction.registrations actions < 2 ^ 64)
    (reaches : Reaches step (fun _ _ => True) first actions registry) :
    registry.replState.connectedReplicas.toNat =
        registry.replState.downstreamSenders.length ↔
      Reaches step NoneGone first actions registry :=
  (bounds_of_reaches noReplicas noSenders reaches few).2.2

/-- Two replicas, one of which registers after a write to the other. -/
def twoReplicas : List RegistryAction :=
  [.register 0, .propagate (asBytes "*1\r\n"), .register 1,
    .propagate (asBytes "*2\r\n"), .close 0]

theorem counted_iff_noneGone_twoReplicas :
    ∃ registry, Reaches step NoneGone
        ⟨.newMaster none, fun _ => some []⟩ twoReplicas registry ∧
      registry.replState.connectedReplicas.toNat =
        registry.replState.downstreamSenders.length := by
  obtain ⟨registry, ran, counted⟩ := Option.map_eq_some_iff.mp
    (by decide : (runActions step ⟨.newMaster none, fun _ => some []⟩
      twoReplicas).map (fun registry =>
        decide (registry.replState.connectedReplicas.toNat =
          registry.replState.downstreamSenders.length)) = some true)
  have right := of_decide_eq_true counted
  exact ⟨registry, (counted_iff_noneGone rfl rfl (by decide)
    (reaches_of_runActions ran)).mp right, right⟩

/-- A replica disconnects, and the next write drops its sender. -/
theorem replica_counted_after_leaving :
    ∃ registry, Reaches step (fun _ _ => True)
        ⟨.newMaster none, fun _ => some []⟩
        [.register 0, .close 0, .propagate (asBytes "*1\r\n")] registry ∧
      registry.replState.downstreamSenders = [] ∧
      registry.replState.connectedReplicas = 1 := by
  obtain ⟨registry, ran, outcome⟩ := Option.map_eq_some_iff.mp
    (by decide : (runActions step ⟨.newMaster none, fun _ => some []⟩
      [.register 0, .close 0, .propagate (asBytes "*1\r\n")]).map
        (fun registry => decide (registry.replState.downstreamSenders = [] ∧
          registry.replState.connectedReplicas = 1)) = some true)
  exact ⟨registry, reaches_of_runActions ran, of_decide_eq_true outcome⟩

end ReplicaRegistry

end RustiCache
