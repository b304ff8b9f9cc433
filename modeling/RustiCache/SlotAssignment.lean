import RustiCache.ClusterConfiguration

/-!
# Assigning slots

Whoever assigns slots does it range by range for one node, up to the first range
that is refused.  Such an assignment appends the accepted ranges to the node's
own list and enters the node in the slot table for every slot in them.
-/

namespace RustiCache

namespace ClusterTopology

/-- The slots of a range, with both ends. -/
def InRange (slot : UInt16) (range : UInt16 × UInt16) : Prop :=
  range.1 ≤ slot ∧ slot ≤ range.2

instance (slot : UInt16) (range : UInt16 × UInt16) :
    Decidable (InRange slot range) :=
  inferInstanceAs (Decidable (_ ∧ _))

/-- The slots of a list of ranges. -/
def Listed (slot : UInt16) (ranges : List (UInt16 × UInt16)) : Prop :=
  ∃ range ∈ ranges, InRange slot range

instance (slot : UInt16) (ranges : List (UInt16 × UInt16)) :
    Decidable (Listed slot ranges) :=
  inferInstanceAs (Decidable (∃ range ∈ ranges, InRange slot range))

theorem not_listed_nil (slot : UInt16) : ¬ Listed slot [] := by
  rintro ⟨_, member, _⟩
  cases member

theorem listed_singleton {slot : UInt16} {range : UInt16 × UInt16} :
    Listed slot [range] ↔ InRange slot range := by
  simp [Listed]

theorem listed_append {slot : UInt16} {first second : List (UInt16 × UInt16)} :
    Listed slot (first ++ second) ↔ Listed slot first ∨ Listed slot second := by
  simp only [Listed, List.mem_append, or_and_right, exists_or]

/-- The id of the node that the slot table gives a slot to. -/
def ownerId (topology : ClusterTopology) (slot : UInt16) : Option String :=
  (topology.getNodeForSlot slot).map ClusterNode.id

theorem ownsSlot_iff (topology : ClusterTopology) (slot : UInt16) :
    topology.ownsSlot slot = true ↔
      topology.ownerId slot = some topology.myselfId := by
  rw [ownsSlot, ownerId]
  cases topology.getNodeForSlot slot <;> simp

/-- Every node is stored under its own id. -/
def Keyed (topology : ClusterTopology) : Prop :=
  ∀ id node, AList.lookup id topology.nodes = some node → node.id = id

theorem lookup_new (myself : ClusterNode) (id : String) :
    AList.lookup id (new myself).nodes =
      if id = myself.id then some myself else none := by
  rw [new]
  split
  next same =>
    subst same
    exact AList.lookup_insert ∅
  next differ => exact (AList.lookup_insert_ne differ).trans rfl

theorem ownerId_new (myself : ClusterNode) (slot : UInt16) :
    (new myself).ownerId slot = none := by
  rw [ownerId, getNodeForSlot, new]
  dsimp only
  split
  next =>
    rw [List.getD_eq_getElem?_getD, List.getElem?_replicate]
    split <;> rfl
  next => rfl

theorem keyed_new (myself : ClusterNode) : (new myself).Keyed := by
  intro id node found
  rw [lookup_new] at found
  split at found
  next same =>
    cases found
    exact same.symm
  next => cases found

theorem lookup_addNode (topology : ClusterTopology) (arrangement : Arrangement)
    (node : ClusterNode) (id : String) :
    AList.lookup id (topology.addNode arrangement node).nodes =
      if id = node.id then some node else AList.lookup id topology.nodes :=
  Table.lookup_insert arrangement node.id id node topology.nodes

theorem Keyed.addNode {topology : ClusterTopology} (keyed : topology.Keyed)
    (arrangement : Arrangement) (node : ClusterNode) :
    (topology.addNode arrangement node).Keyed := by
  intro id other found
  rw [lookup_addNode] at found
  split at found
  next same =>
    cases found
    exact same.symm
  next => exact keyed id other found

/-- What an assignment of ranges to a node does. -/
structure Granted (topology : ClusterTopology) (nodeId : String)
    (ranges : List (UInt16 × UInt16)) (next : ClusterTopology) : Prop where
  myselfId_eq : next.myselfId = topology.myselfId
  lookup_eq : ∀ id, AList.lookup id next.nodes =
    if id = nodeId then
      (AList.lookup nodeId topology.nodes).map fun node =>
        { node with slots := node.slots ++ ranges }
    else
      AList.lookup id topology.nodes
  ownerId_eq : ∀ slot, next.ownerId slot =
    if Listed slot ranges then some nodeId else topology.ownerId slot

namespace Granted

variable {topology middle next : ClusterTopology} {nodeId : String}
  {first second ranges : List (UInt16 × UInt16)}

protected theorem refl (topology : ClusterTopology) (nodeId : String) :
    Granted topology nodeId [] topology where
  myselfId_eq := rfl
  lookup_eq id := by
    split
    next same =>
      rw [same]
      cases AList.lookup nodeId topology.nodes <;> simp
    next => rfl
  ownerId_eq slot := by
    rw [if_neg (not_listed_nil slot)]

protected theorem trans (before : Granted topology nodeId first middle)
    (after : Granted middle nodeId second next) :
    Granted topology nodeId (first ++ second) next where
  myselfId_eq := after.myselfId_eq.trans before.myselfId_eq
  lookup_eq id := by
    rw [after.lookup_eq]
    split
    next =>
      rw [before.lookup_eq, if_pos rfl, Option.map_map]
      congr 1
      funext node
      simp
    next differ => rw [before.lookup_eq, if_neg differ]
  ownerId_eq slot := by
    rw [after.ownerId_eq, before.ownerId_eq]
    by_cases later : Listed slot second
    · rw [if_pos later, if_pos (listed_append.mpr (Or.inr later))]
    · rw [if_neg later]
      by_cases earlier : Listed slot first
      · rw [if_pos earlier, if_pos (listed_append.mpr (Or.inl earlier))]
      · rw [if_neg earlier, if_neg]
        rw [listed_append]
        exact not_or.mpr ⟨earlier, later⟩

theorem keyed (granted : Granted topology nodeId ranges next)
    (keyed : topology.Keyed) : next.Keyed := by
  intro id node found
  rw [granted.lookup_eq] at found
  split at found
  next same =>
    obtain ⟨old, stored, rfl⟩ := Option.map_eq_some_iff.mp found
    exact (keyed nodeId old stored).trans same.symm
  next => exact keyed id node found

/-- A node that is known before is known afterwards, and no other. -/
theorem lookup_isSome (granted : Granted topology nodeId ranges next)
    (id : String) :
    (AList.lookup id next.nodes).isSome =
      (AList.lookup id topology.nodes).isSome := by
  rw [granted.lookup_eq]
  split
  next same => rw [Option.isSome_map, same]
  next => rfl

end Granted

theorem assign_getD (node : ClusterNode) (start count slot : Nat)
    (owners : List (Option ClusterNode)) (inside : slot < owners.length) :
    (assign node start count owners).getD slot none =
      if start ≤ slot ∧ slot < start + count then some node
      else owners.getD slot none := by
  rw [assign]
  induction count generalizing start owners with
  | zero => simp
  | succ count ih =>
      have inRest : slot < (owners.set start (some node)).length := by
        rwa [List.length_set]
      rw [List.range'_succ, List.foldl_cons, ih _ _ inRest]
      by_cases here : start = slot
      · subst here
        rw [if_neg (by omega), if_pos (by omega)]
        simp [List.getD_eq_getElem?_getD, inside]
      · have untouched : (owners.set start (some node)).getD slot none =
            owners.getD slot none := by
          simp [List.getD_eq_getElem?_getD, here]
        rw [untouched]
        exact if_congr (by omega) rfl rfl

/-- The ranges that an assignment accepts. -/
def validRange (start last : UInt16) : Bool :=
  start ≤ last && last < hashSlots

theorem addSlotsRange_of_invalid {start last : UInt16}
    (invalid : validRange start last = false) (topology : ClusterTopology)
    (nodeId : String) :
    topology.addSlotsRange nodeId start last =
      .error s!"Invalid slot range {start}-{last}" := by
  rw [addSlotsRange, if_pos]
  simp only [validRange, Bool.and_eq_false_iff, decide_eq_false_iff_not,
    UInt16.not_le, UInt16.not_lt] at invalid
  simpa using invalid

theorem addSlotsRange_of_unknown {topology : ClusterTopology} {nodeId : String}
    {start last : UInt16} (valid : validRange start last = true)
    (unknown : AList.lookup nodeId topology.nodes = none) :
    topology.addSlotsRange nodeId start last =
      .error s!"Unknown node id {nodeId}" := by
  rw [validRange, Bool.and_eq_true, decide_eq_true_eq, decide_eq_true_eq]
    at valid
  rw [addSlotsRange, if_neg, unknown]
  simpa using valid

theorem addSlotsRange_of_known {topology : ClusterTopology} {nodeId : String}
    {start last : UInt16} (keyed : topology.Keyed)
    (valid : validRange start last = true)
    (known : (AList.lookup nodeId topology.nodes).isSome = true) :
    ∃ next, topology.addSlotsRange nodeId start last = .ok next ∧
      Granted topology nodeId [(start, last)] next := by
  obtain ⟨node, found⟩ := Option.isSome_iff_exists.mp known
  rw [validRange, Bool.and_eq_true, decide_eq_true_eq, decide_eq_true_eq]
    at valid
  rw [addSlotsRange, if_neg (by simpa using valid), found]
  refine ⟨_, rfl, rfl, ?_, ?_⟩
  · intro id
    rw [Table.lookup_replace id _ found, found]
    rfl
  · intro slot
    rw [ownerId, getNodeForSlot, ownerId, getNodeForSlot]
    dsimp only
    rw [assign_length]
    split
    next inside =>
      rw [assign_getD _ _ _ _ _ inside]
      have span : (start.toNat ≤ slot.toNat ∧
          slot.toNat < start.toNat + (last.toNat + 1 - start.toNat)) ↔
          Listed slot [(start, last)] := by
        rw [listed_singleton, InRange, UInt16.le_iff_toNat_le,
          UInt16.le_iff_toNat_le]
        dsimp only
        omega
      simp only [span]
      split
      next => rw [Option.map_some, keyed nodeId node found]
      next => rfl
    next outside =>
      have beyond : ¬ Listed slot [(start, last)] := by
        rw [listed_singleton, InRange, UInt16.le_iff_toNat_le,
          UInt16.le_iff_toNat_le]
        have bound := UInt16.lt_iff_toNat_lt.mp valid.2
        have slots : hashSlots.toNat = 16384 := by decide
        rw [topology.slotToNode_length] at outside
        dsimp only
        omega
      rw [if_neg beyond]

/-- The ranges of a specification that come before the first that is refused. -/
def acceptedRanges : List String → List (UInt16 × UInt16)
  | [] => []
  | part :: parts =>
      if trim part = "" then
        acceptedRanges parts
      else
        match parseRange (trim part) with
        | .error _ => []
        | .ok (start, last) =>
            if validRange start last then
              (start, last) :: acceptedRanges parts
            else
              []

theorem assignParts_granted {nodeId : String} (parts : List String)
    {topology : ClusterTopology} (keyed : topology.Keyed)
    (known : (AList.lookup nodeId topology.nodes).isSome = true) :
    Granted topology nodeId (acceptedRanges parts)
      (assignParts nodeId parts topology).2 := by
  induction parts generalizing topology with
  | nil => exact .refl topology nodeId
  | cons part parts ih =>
      rw [acceptedRanges, assignParts]
      split
      next => exact ih keyed known
      next =>
        cases parsed : parseRange (trim part) with
        | error reason => exact .refl topology nodeId
        | ok range =>
            obtain ⟨start, last⟩ := range
            dsimp only
            cases valid : validRange start last with
            | false =>
                rw [addSlotsRange_of_invalid valid]
                exact .refl topology nodeId
            | true =>
                obtain ⟨next, added, granted⟩ :=
                  addSlotsRange_of_known keyed valid known
                rw [added]
                exact granted.trans (ih (granted.keyed keyed)
                  ((granted.lookup_isSome nodeId).trans known))

/-- Nothing is assigned to a node that is not known. -/
theorem assignParts_of_unknown {nodeId : String} (parts : List String)
    {topology : ClusterTopology}
    (unknown : AList.lookup nodeId topology.nodes = none) :
    (assignParts nodeId parts topology).2 = topology := by
  induction parts with
  | nil => rfl
  | cons part parts ih =>
      rw [assignParts]
      split
      next => exact ih
      next =>
        cases parsed : parseRange (trim part) with
        | error reason => rfl
        | ok range =>
            obtain ⟨start, last⟩ := range
            dsimp only
            cases valid : validRange start last with
            | false => rw [addSlotsRange_of_invalid valid]
            | true => rw [addSlotsRange_of_unknown valid unknown]

/-- The slots of `CLUSTER ADDSLOTS` that come before the first that is
refused. -/
def acceptedSlots (slots : List UInt16) : List (UInt16 × UInt16) :=
  (slots.takeWhile (· < hashSlots)).map fun slot => (slot, slot)

theorem addSlots_granted {nodeId : String} (slots : List UInt16)
    {topology : ClusterTopology} (keyed : topology.Keyed)
    (known : (AList.lookup nodeId topology.nodes).isSome = true) :
    Granted topology nodeId (acceptedSlots slots)
      (Command.addSlots nodeId slots topology).2 := by
  induction slots generalizing topology with
  | nil => exact .refl topology nodeId
  | cons slot slots ih =>
      rw [acceptedSlots, Command.addSlots, List.takeWhile_cons]
      cases within : decide (slot < hashSlots) with
      | false =>
          have invalid : validRange slot slot = false := by
            simp [validRange, within]
          rw [addSlotsRange_of_invalid invalid]
          exact .refl topology nodeId
      | true =>
          have valid : validRange slot slot = true := by
            simp [validRange, within]
          obtain ⟨next, added, granted⟩ :=
            addSlotsRange_of_known keyed valid known
          rw [added]
          exact granted.trans (ih (granted.keyed keyed)
            ((granted.lookup_isSome nodeId).trans known))

end ClusterTopology

end RustiCache
