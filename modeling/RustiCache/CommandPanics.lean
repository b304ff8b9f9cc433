import RustiCache.CheckedExecution
import RustiCache.EvictionRounds

/-!
# Where the parts of an execution panic

Shards, slots and checksum entries are always in range, and counts stay below
the number of arguments.  Piece by piece, the checked execution returns what the
plain one returns; of the store's operations only a `set` can panic, if the size
of its entry is not a machine number.
-/

namespace RustiCache

namespace Checked

theorem crc16_eq (bytes : Bytes) : crc16 bytes = .ok (RustiCache.crc16 bytes) := by
  refine foldlM_eq (fun _ => True) ?_ trivial
  intro crc byte _ _
  have bound := crc16_index_lt crc byte
  rw [index_eq (List.getElem?_eq_getElem bound), List.getD,
    List.getElem?_eq_getElem bound]
  exact ⟨rfl, trivial⟩

theorem extractHashtag_eq {key : Bytes} (short : key.length < 2 ^ 63) :
    extractHashtag key = .ok (RustiCache.extractHashtag key) := by
  rw [extractHashtag, RustiCache.extractHashtag]
  cases opened : key.findIdx? (· == 0x7b) with
  | none => rfl
  | some start =>
      have startBound : start < key.length :=
        (List.findIdx?_eq_some_iff_getElem.mp opened).1
      have next : add (2 ^ 64) start 1 = .ok (start + 1) := add_eq (by omega)
      simp only [next, ok_bind, sliceFrom_eq startBound]
      cases closed : (key.drop (start + 1)).findIdx? (· == 0x7d) with
      | none => rfl
      | some length =>
          have lengthBound : length < (key.drop (start + 1)).length :=
            (List.findIdx?_eq_some_iff_getElem.mp closed).1
          rw [List.length_drop] at lengthBound
          have stop : add (2 ^ 64) (start + 1) length =
              .ok (start + 1 + length) := add_eq (by omega)
          simp only [stop, ok_bind]
          by_cases nonempty : 0 < length
          · rw [if_pos nonempty, if_pos (by omega),
              slice_eq (by omega) (by omega), List.take_drop]
          · rw [if_neg nonempty, if_neg (by omega)]
            rfl

theorem keySlot_eq {key : Bytes} (short : key.length < 2 ^ 63) :
    keySlot key = .ok (RustiCache.keySlot key) := by
  rw [keySlot, extractHashtag_eq short, ok_bind, crc16_eq]
  rfl

end Checked

namespace Db

namespace Checked

open RustiCache.Checked

variable {hasher : String → UInt64}

/-- A key's own shard exists. -/
theorem index_shardIndex (db : Db hasher) (key : String) :
    index db.shards (db.shardIndex key) = .ok (db.shard (db.shardIndex key)) := by
  have bound := db.shardIndex_lt key
  rw [db.shard_eq_getElem bound]
  exact index_eq (List.getElem?_eq_getElem bound)

theorem get_eq (db : Db hasher) (now : Instant) (key : String) :
    get db now key = .ok (db.get now key) := by
  rw [get, index_shardIndex]
  rfl

theorem del_eq (db : Db hasher) (key : String) :
    del db key = .ok (db.del key) := by
  rw [del, index_shardIndex]
  rfl

theorem exists_eq (db : Db hasher) (now : Instant) (key : String) :
    «exists» db now key = .ok (db.exists now key) := by
  rw [«exists», get_eq]
  rfl

theorem evictOne_eq (db : Db hasher) : evictOne db = .ok db.evictOne := by
  rw [evictOne, Db.evictOne]
  split
  next =>
    cases oldest : db.oldestSampled with
    | none => rfl
    | some found =>
        obtain ⟨idx, key, ts⟩ := found
        obtain ⟨entry, stored, _⟩ := oldestSampled_spec oldest
        have bound := idx_lt_of_lookup stored
        have shardAt : index db.shards idx = .ok (db.shard idx) := by
          rw [db.shard_eq_getElem bound]
          exact index_eq (List.getElem?_eq_getElem bound)
        simp only [shardAt, ok_bind]
        cases AList.lookup key (db.shard idx) <;> rfl
  next => rfl

theorem evictRounds_eq (rounds : Nat) (db : Db hasher) :
    evictRounds rounds db = .ok (Db.evictRounds rounds db) := by
  induction rounds generalizing db with
  | zero => rfl
  | succ rounds ih =>
      rw [evictRounds, evictOne_eq, ok_bind, Db.evictRounds]
      cases db.evictOne with
      | none => rfl
      | some next => exact ih next

theorem newEntry_eq {keyLen : Nat} {value : Bytes}
    (fits : keyLen + value.length + Entry.structSize < 2 ^ 64)
    (expiresAt : Option Instant) (now : Instant) :
    newEntry keyLen value expiresAt now =
      .ok (Entry.new keyLen value expiresAt now) := by
  rw [newEntry, add_eq (by omega), ok_bind, add_eq fits]
  rfl

theorem newEntry_overflow {keyLen : Nat} {value : Bytes}
    (large : ¬ keyLen + value.length + Entry.structSize < 2 ^ 64)
    (expiresAt : Option Instant) (now : Instant) :
    newEntry keyLen value expiresAt now = .error .overflow := by
  rw [newEntry, add]
  split
  next => rw [ok_bind, add, if_neg large, error_bind]
  next => rfl

theorem set_eq {key : String} {value : Bytes}
    (fits : (asBytes key).length + value.length + Entry.structSize < 2 ^ 64)
    (db : Db hasher) (arrangement : Arrangement) (now : Instant)
    (expiresAt : Option Instant) :
    set db arrangement now key value expiresAt =
      .ok (db.set arrangement now key value expiresAt) := by
  rw [set, Db.set, ensureMemoryCapacity, evictRounds_eq, newEntry_eq fits]
  split
  · simp only [ok_bind, index_shardIndex]
    rfl
  · simp only [pure_eq, ok_bind, index_shardIndex]

theorem set_overflow {key : String} {value : Bytes}
    (large : ¬ (asBytes key).length + value.length + Entry.structSize < 2 ^ 64)
    (db : Db hasher) (arrangement : Arrangement) (now : Instant)
    (expiresAt : Option Instant) :
    set db arrangement now key value expiresAt = .error .overflow := by
  rw [set, ensureMemoryCapacity, evictRounds_eq, newEntry_overflow large]
  split <;> rfl

end Checked

end Db

namespace ClusterTopology

namespace Checked

open RustiCache.Checked

theorem assign_eq (node : ClusterNode) (start count : Nat)
    {slotToNode : List (Option ClusterNode)}
    (within : start + count ≤ slotToNode.length) :
    assign node start count slotToNode =
      .ok (ClusterTopology.assign node start count slotToNode) := by
  refine foldlM_eq (fun owners => owners.length = slotToNode.length) ?_ rfl
  intro owners slot member sized
  have bounds := List.mem_range'_1.mp member
  have slotBound : slot < owners.length := by omega
  rw [index_eq (List.getElem?_eq_getElem slotBound), ok_bind]
  exact ⟨rfl, by rw [List.length_set, sized]⟩

/-- A range that is accepted lies in the slot table. -/
theorem addSlotsRange_eq (topology : ClusterTopology) (nodeId : String)
    (start last : UInt16) :
    addSlotsRange topology nodeId start last =
      .ok (topology.addSlotsRange nodeId start last) := by
  rw [addSlotsRange]
  split
  next invalid => rw [ClusterTopology.addSlotsRange, if_pos invalid, pure_eq]
  next valid =>
    have within : start.toNat + (last.toNat + 1 - start.toNat) ≤
        topology.slotToNode.length := by
      rw [Bool.or_eq_true, not_or, decide_eq_true_eq, decide_eq_true_eq,
        UInt16.not_lt, UInt16.not_le, UInt16.le_iff_toNat_le,
        UInt16.lt_iff_toNat_lt] at valid
      have slots : hashSlots.toNat = 16384 := rfl
      rw [topology.slotToNode_length]
      omega
    cases known : AList.lookup nodeId topology.nodes with
    | none => rw [ClusterTopology.addSlotsRange, if_neg valid, known, pure_eq]
    | some node =>
        simp only [assign_eq node _ _ within, ok_bind, pure_eq]

end Checked

end ClusterTopology

namespace Command

namespace Checked

open RustiCache.Checked

variable {hasher : String → UInt64}

theorem delKeys_eq (names : List String) (count : Nat) (db : Db hasher)
    (few : count + names.length < 2 ^ 63) :
    delKeys names count db =
      .ok (count + (Command.delKeys names db).1,
        (Command.delKeys names db).2) := by
  induction names generalizing count db with
  | nil => rfl
  | cons key names ih =>
      rw [List.length_cons] at few
      rw [delKeys, Db.Checked.del_eq, ok_bind, Command.delKeys]
      cases removed : (db.del key).1 with
      | false =>
          simp only [removed, Bool.false_eq_true, if_false, pure_eq, ok_bind]
          exact ih count (db.del key).2 (by omega)
      | true =>
          simp only [removed, if_true, add_eq (by omega : count + 1 < 2 ^ 63),
            ok_bind]
          rw [ih (count + 1) (db.del key).2 (by omega), Nat.add_assoc,
            Nat.add_comm 1]

theorem existsKeys_eq (clock : Nat → Instant) (reading : Nat)
    (names : List String) (count : Nat) (db : Db hasher)
    (few : count + names.length < 2 ^ 63) :
    existsKeys clock reading names count db =
      .ok (count + (Command.existsKeys clock reading names db).1,
        (Command.existsKeys clock reading names db).2) := by
  induction names generalizing reading count db with
  | nil => rfl
  | cons key names ih =>
      rw [List.length_cons] at few
      rw [existsKeys, Db.Checked.exists_eq, ok_bind, Command.existsKeys]
      cases present : (db.exists (clock reading) key).1 with
      | false =>
          simp only [present, Bool.false_eq_true, if_false, pure_eq, ok_bind]
          exact ih (reading + 1) count (db.exists (clock reading) key).2
            (by omega)
      | true =>
          simp only [present, if_true, add_eq (by omega : count + 1 < 2 ^ 63),
            ok_bind]
          rw [ih (reading + 1) (count + 1) (db.exists (clock reading) key).2
            (by omega), Nat.add_assoc, Nat.add_comm 1]

theorem addSlots_eq (id : String) (slots : List UInt16)
    (topology : ClusterTopology) :
    addSlots id slots topology = .ok (Command.addSlots id slots topology) := by
  induction slots generalizing topology with
  | nil => rfl
  | cons slot slots ih =>
      rw [addSlots, ClusterTopology.Checked.addSlotsRange_eq, ok_bind,
        Command.addSlots]
      cases topology.addSlotsRange id slot slot with
      | error reason => rfl
      | ok next => exact ih next

theorem executeReplConf_eq (replState : ReplicationState) (args : List String) :
    executeReplConf replState args =
      .ok (Command.executeReplConf replState args) := by
  cases args with
  | nil => rfl
  | cons sub args =>
      have subAt : index (sub :: args) 0 = .ok sub := rfl
      rw [executeReplConf, if_neg (by simp), subAt, ok_bind,
        Command.executeReplConf]
      split
      · rfl
      · split <;> rfl

end Checked

end Command

end RustiCache
