import RustiCache.RunLengths
import RustiCache.SlotAssignment

/-!
# The reply to `CLUSTER SLOTS`

The reply lists the maximal runs of slots with one owner.  The pass over the slot
table is the run-length encoding of the table by the ids of the owners.
-/

namespace RustiCache

namespace ClusterTopology

/-- A run of places of the slot table, as a range of slots. -/
def rangeOf (run : Run ClusterNode) : SlotRange :=
  (UInt16.ofNat run.first, UInt16.ofNat run.last, run.item)

/-- The pass of the source, on ranges of slots. -/
theorem extendRanges_rangeOf
    (progress : List (Run ClusterNode) × Option (Run ClusterNode))
    (indexed : Option ClusterNode × Nat) :
    extendRanges (progress.1.map rangeOf, progress.2.map rangeOf) indexed =
      ((Run.advance ClusterNode.id progress indexed).1.map rangeOf,
        (Run.advance ClusterNode.id progress indexed).2.map rangeOf) := by
  obtain ⟨closed, current⟩ := progress
  obtain ⟨entry, place⟩ := indexed
  cases current with
  | none => cases entry <;> rfl
  | some run =>
      cases entry with
      | none => simp [extendRanges, Run.advance, rangeOf]
      | some owner =>
          simp only [extendRanges, Run.advance, Option.map_some, rangeOf]
          split
          · rfl
          · simp [rangeOf]

theorem foldl_extendRanges (indexed : List (Option ClusterNode × Nat))
    (progress : List (Run ClusterNode) × Option (Run ClusterNode)) :
    indexed.foldl extendRanges
        (progress.1.map rangeOf, progress.2.map rangeOf) =
      ((indexed.foldl (Run.advance ClusterNode.id) progress).1.map rangeOf,
        (indexed.foldl (Run.advance ClusterNode.id) progress).2.map
          rangeOf) := by
  induction indexed generalizing progress with
  | nil => rfl
  | cons entry indexed ih =>
      rw [List.foldl_cons, extendRanges_rangeOf, ih, List.foldl_cons]

theorem slotRanges_eq (topology : ClusterTopology) :
    topology.slotRanges =
      (Run.encode ClusterNode.id topology.slotToNode).map rangeOf := by
  have scanned := foldl_extendRanges topology.slotToNode.zipIdx ([], none)
  simp only [List.map_nil, Option.map_none] at scanned
  rw [slotRanges, scanned, Run.encode, Run.scan, List.map_append]
  cases (topology.slotToNode.zipIdx.foldl
    (Run.advance ClusterNode.id) ([], none)).2 <;> rfl

theorem ownerId_eq_labelAt (topology : ClusterTopology) (slot : UInt16) :
    topology.ownerId slot =
      Run.labelAt ClusterNode.id topology.slotToNode slot.toNat := by
  rw [ownerId, getNodeForSlot, Run.labelAt]
  split
  next => rfl
  next outside =>
    rw [List.getD_eq_getElem?_getD,
      List.getElem?_eq_none (Nat.le_of_not_lt outside)]
    rfl

section Ranges

variable (topology : ClusterTopology) {run : Run ClusterNode}

theorem encodes_slotToNode :
    Run.Encodes ClusterNode.id topology.slotToNode
      (Run.encode ClusterNode.id topology.slotToNode) :=
  Run.encodes_encode topology.slotToNode

/-- The places of the slot table are machine words. -/
theorem run_bounds
    (member : run ∈ Run.encode ClusterNode.id topology.slotToNode) :
    (rangeOf run).1.toNat = run.first ∧ (rangeOf run).2.1.toNat = run.last ∧
      run.first ≤ run.last ∧ run.last < 16384 := by
  have encodes := topology.encodes_slotToNode
  have within := encodes.filled run member
  have inside := encodes.last_lt member
  rw [topology.slotToNode_length] at inside
  refine ⟨?_, ?_, within, inside⟩
  · rw [rangeOf, UInt16.toNat_ofNat']
    omega
  · rw [rangeOf, UInt16.toNat_ofNat']
    omega

/-- The node of a range owns its first slot. -/
theorem getNodeForSlot_first
    (member : run ∈ Run.encode ClusterNode.id topology.slotToNode) :
    topology.getNodeForSlot (rangeOf run).1 = some (rangeOf run).2.2 := by
  have begins := topology.encodes_slotToNode.begins run member
  obtain ⟨first, -, within, inside⟩ := topology.run_bounds member
  have bound : (rangeOf run).1.toNat < topology.slotToNode.length := by
    rw [first, topology.slotToNode_length]
    omega
  rw [getNodeForSlot, if_pos bound, first, List.getD_eq_getElem?_getD, begins]
  rfl

theorem covers_iff_inRange
    (member : run ∈ Run.encode ClusterNode.id topology.slotToNode)
    (slot : UInt16) :
    run.Covers slot.toNat ↔
      InRange slot ((rangeOf run).1, (rangeOf run).2.1) := by
  obtain ⟨first, last, -, -⟩ := topology.run_bounds member
  rw [Run.Covers, InRange, UInt16.le_iff_toNat_le, UInt16.le_iff_toNat_le, first,
    last]

end Ranges

/-- The reply is a run-length encoding of the slot table: a row for each range,
with its first and last slot and with the address and the id of the node that owns
the first slot. -/
theorem formatClusterSlots_exact (topology : ClusterTopology) :
    ∃ ranges : List SlotRange,
      topology.formatClusterSlots =
        Value.array (some (ranges.map fun range =>
          Value.array (some
            [Value.integer (Int64.ofNat range.1.toNat),
              Value.integer (Int64.ofNat range.2.1.toNat),
              Value.array (some
                [Value.bulkString (some (asBytes range.2.2.ip)),
                  Value.integer (Int64.ofNat range.2.2.port.toNat),
                  Value.bulkString (some (asBytes range.2.2.id))])]))) ∧
      (∀ range ∈ ranges, range.1 ≤ range.2.1 ∧ range.2.1 < hashSlots ∧
        topology.getNodeForSlot range.1 = some range.2.2) ∧
      (ranges.Pairwise fun earlier later => earlier.2.1 < later.1) ∧
      (∀ slot id, (∃ range ∈ ranges,
          InRange slot (range.1, range.2.1) ∧ range.2.2.id = id) ↔
        topology.ownerId slot = some id) ∧
      (∀ slot, topology.getNodeForSlot slot = none →
        ∀ range ∈ ranges, ¬ InRange slot (range.1, range.2.1)) ∧
      ranges.IsChain fun earlier later =>
        ¬ (earlier.2.1 + 1 = later.1 ∧ earlier.2.2.id = later.2.2.id) := by
  have encodes := topology.encodes_slotToNode
  have labels : ∀ slot id, (∃ range ∈ topology.slotRanges,
        InRange slot (range.1, range.2.1) ∧ range.2.2.id = id) ↔
      topology.ownerId slot = some id := by
    intro slot id
    rw [ownerId_eq_labelAt, ← encodes.labels, slotRanges_eq]
    simp only [List.mem_map, exists_exists_and_eq_and]
    apply exists_congr
    intro run
    apply and_congr_right
    intro member
    rw [topology.covers_iff_inRange member]
    rfl
  refine ⟨topology.slotRanges, rfl, ?_, ?_, labels, ?_, ?_⟩
  · rw [slotRanges_eq]
    intro range member
    obtain ⟨run, isRun, rfl⟩ := List.mem_map.mp member
    obtain ⟨first, last, within, inside⟩ := topology.run_bounds isRun
    rw [UInt16.le_iff_toNat_le, UInt16.lt_iff_toNat_lt, first, last]
    exact ⟨within, inside, topology.getNodeForSlot_first isRun⟩
  · rw [slotRanges_eq, List.pairwise_map]
    refine encodes.ordered.imp_of_mem fun earlier later order => ?_
    rw [UInt16.lt_iff_toNat_lt, (topology.run_bounds earlier).2.1,
      (topology.run_bounds later).1]
    exact order
  · intro slot unassigned range member inside
    have owned := (labels slot range.2.2.id).mp ⟨range, member, inside, rfl⟩
    rw [ownerId, unassigned] at owned
    cases owned
  · rw [slotRanges_eq, List.isChain_map]
    refine List.IsChain.imp_of_mem_imp ?_ encodes.maximal
    rintro earlier later isEarlier isLater apart ⟨touching, same⟩
    refine apart ⟨?_, same⟩
    obtain ⟨-, last, -, inside⟩ := topology.run_bounds isEarlier
    rw [← (topology.run_bounds isLater).1, ← touching, UInt16.toNat_add, last]
    change _ = (earlier.last + 1) % 65536
    omega

end ClusterTopology

end RustiCache
