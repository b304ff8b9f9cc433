import RustiCache.SlotAssignment
import RustiCache.StepwiseUpdates

/-!
# Failed slot updates

A single range is checked before anything is written.  A slot specification and
`CLUSTER ADDSLOTS` assign range after range, so an error that comes after an
accepted range leaves that range assigned.
-/

namespace RustiCache

open Stepwise (applyAll Unharmed Decides)

namespace ClusterTopology

/-- The slot table and the slot lists of all nodes are the same. -/
def SameSlots (before after : ClusterTopology) : Prop :=
  after.slotToNode = before.slotToNode ∧
    ∀ id, (AList.lookup id after.nodes).map ClusterNode.slots =
      (AList.lookup id before.nodes).map ClusterNode.slots

theorem SameSlots.refl (topology : ClusterTopology) :
    SameSlots topology topology :=
  ⟨rfl, fun _ => rfl⟩

/-- The node is known. -/
def Knows (nodeId : String) (topology : ClusterTopology) : Prop :=
  (AList.lookup nodeId topology.nodes).isSome = true

theorem lookup_of_not_knows {nodeId : String} {topology : ClusterTopology}
    (unknown : ¬ Knows nodeId topology) :
    AList.lookup nodeId topology.nodes = none := by
  rwa [Knows, Bool.not_eq_true, Option.isSome_eq_false_iff,
    Option.isNone_iff_eq_none] at unknown

/-- The number of ranges in the list of a node. -/
def rangeCount (nodeId : String) (topology : ClusterTopology) : Nat :=
  (((AList.lookup nodeId topology.nodes).map ClusterNode.slots).getD []).length

theorem SameSlots.rangeCount_eq {before after : ClusterTopology}
    (same : SameSlots before after) (nodeId : String) :
    rangeCount nodeId before = rangeCount nodeId after := by
  rw [rangeCount, rangeCount, same.2]

section Ranges

variable {nodeId : String} {topology : ClusterTopology}

/-- A range that is accepted is appended to the node's list. -/
theorem addSlotsRange_grows {start last : UInt16}
    (knows : Knows nodeId topology) (valid : validRange start last = true) :
    ∃ next, topology.addSlotsRange nodeId start last = .ok next ∧
      Knows nodeId next ∧ rangeCount nodeId topology < rangeCount nodeId next := by
  obtain ⟨node, found⟩ := Option.isSome_iff_exists.mp knows
  rw [validRange, Bool.and_eq_true, decide_eq_true_eq, decide_eq_true_eq]
    at valid
  rw [addSlotsRange, if_neg (by simpa using valid), found]
  refine ⟨_, rfl, ?_, ?_⟩
  · rw [Knows, Table.lookup_replace nodeId _ found, if_pos rfl]
    rfl
  · rw [rangeCount, rangeCount, Table.lookup_replace nodeId _ found, if_pos rfl,
      found]
    simp

theorem addSlotsRange_refuses {start last : UInt16}
    (refused : validRange start last = false ∨ ¬ Knows nodeId topology) :
    ∃ reason, topology.addSlotsRange nodeId start last = .error reason := by
  cases valid : validRange start last with
  | false => exact ⟨_, addSlotsRange_of_invalid valid topology nodeId⟩
  | true =>
      have unknown : ¬ Knows nodeId topology := by
        rcases refused with invalid | unknown
        · rw [valid] at invalid
          cases invalid
        · exact unknown
      exact ⟨_, addSlotsRange_of_unknown valid (lookup_of_not_knows unknown)⟩

/-- Assign one range. -/
def addRange (nodeId : String) (range : UInt16 × UInt16)
    (topology : ClusterTopology) : Except String ClusterTopology :=
  topology.addSlotsRange nodeId range.1 range.2

end Ranges

section Specifications

variable {nodeId : String} {topology : ClusterTopology}

/-- Assign one piece of a specification. -/
def assignPiece (nodeId piece : String) (topology : ClusterTopology) :
    Except String ClusterTopology :=
  match parseRange (trim piece) with
  | .error reason => .error reason
  | .ok range => addRange nodeId range topology

/-- The pieces of a specification that are not blank. -/
def pieces (spec : String) : List String :=
  ((spec.toList.splitOn ',').map String.ofList).filter fun piece =>
    trim piece ≠ ""

/-- The piece is a range of slots. -/
def acceptsPiece (piece : String) : Bool :=
  match parseRange (trim piece) with
  | .error _ => false
  | .ok range => validRange range.1 range.2

theorem assignParts_eq_applyAll (nodeId : String) (parts : List String)
    (topology : ClusterTopology) :
    assignParts nodeId parts topology =
      applyAll (assignPiece nodeId)
        (parts.filter fun piece => trim piece ≠ "") topology := by
  induction parts generalizing topology with
  | nil => rfl
  | cons part parts ih =>
      rw [assignParts]
      split
      next blank => rw [List.filter_cons_of_neg (by simp [blank]), ih]
      next nonblank =>
        rw [List.filter_cons_of_pos (by simp [nonblank]), applyAll, assignPiece]
        cases parseRange (trim part) with
        | error reason => rfl
        | ok range =>
            obtain ⟨start, last⟩ := range
            dsimp only [addRange]
            cases topology.addSlotsRange nodeId start last with
            | error reason => rfl
            | ok next => exact ih next

theorem parseAndAssignSlots_eq_applyAll (topology : ClusterTopology)
    (nodeId spec : String) :
    topology.parseAndAssignSlots nodeId spec =
      applyAll (assignPiece nodeId) (pieces spec) topology :=
  assignParts_eq_applyAll nodeId _ topology

theorem decides_assignPiece (nodeId : String) :
    Decides (assignPiece nodeId) acceptsPiece (Knows nodeId)
      (rangeCount nodeId) where
  accepted {piece topology} knows accepted := by
    rw [acceptsPiece] at accepted
    rw [assignPiece]
    cases parsed : parseRange (trim piece) with
    | error reason =>
        rw [parsed] at accepted
        cases accepted
    | ok range =>
        rw [parsed] at accepted
        exact addSlotsRange_grows knows accepted
  refused {piece topology} knows refused := by
    rw [acceptsPiece] at refused
    rw [assignPiece]
    cases parsed : parseRange (trim piece) with
    | error reason => exact ⟨reason, rfl⟩
    | ok range =>
        rw [parsed] at refused
        exact addSlotsRange_refuses (Or.inl refused)

theorem assignPiece_of_unknown (unknown : ¬ Knows nodeId topology)
    (piece : String) : ∃ reason, assignPiece nodeId piece topology =
      .error reason := by
  rw [assignPiece]
  cases parseRange (trim piece) with
  | error reason => exact ⟨reason, rfl⟩
  | ok range => exact addSlotsRange_refuses (Or.inr unknown)

/-- A failed specification does no harm if its first piece is refused already. -/
theorem parseAndAssignSlots_unharmed_iff (topology : ClusterTopology)
    (nodeId spec : String) :
    Unharmed SameSlots topology (topology.parseAndAssignSlots nodeId spec) ↔
      (Knows nodeId topology →
        ∀ first ∈ (pieces spec).head?, acceptsPiece first = true →
          ∀ piece ∈ pieces spec, acceptsPiece piece = true) := by
  rw [parseAndAssignSlots_eq_applyAll]
  by_cases knows : Knows nodeId topology
  · rw [Stepwise.unharmed_iff (decides_assignPiece nodeId) SameSlots.refl
      (fun same => same.rangeCount_eq nodeId) knows]
    exact ⟨fun all _ => all, fun all => all knows⟩
  · refine iff_of_true ?_ fun known => absurd known knows
    intro reason _
    rw [Stepwise.applyAll_of_refusing (assignPiece_of_unknown knows)]
    exact SameSlots.refl topology

end Specifications

section Commands

/-- Assign one slot. -/
def addSlot (nodeId : String) (slot : UInt16) (topology : ClusterTopology) :
    Except String ClusterTopology :=
  addRange nodeId (slot, slot) topology

/-- The reply of `CLUSTER ADDSLOTS`. -/
def addSlotsReply : Except String Unit → Value
  | .ok () => Value.ok
  | .error reason => Value.error reason

theorem addSlots_eq_applyAll (nodeId : String) (slots : List UInt16)
    (topology : ClusterTopology) :
    Command.addSlots nodeId slots topology =
      (addSlotsReply (applyAll (addSlot nodeId) slots topology).1,
        (applyAll (addSlot nodeId) slots topology).2) := by
  induction slots generalizing topology with
  | nil => rfl
  | cons slot slots ih =>
      rw [Command.addSlots, applyAll, addSlot, addRange]
      dsimp only
      cases topology.addSlotsRange nodeId slot slot with
      | error reason => rfl
      | ok next => exact ih next

theorem decides_addSlot (nodeId : String) :
    Decides (addSlot nodeId) (fun slot => decide (slot < hashSlots))
      (Knows nodeId) (rangeCount nodeId) where
  accepted {slot topology} knows accepted := by
    have valid : validRange slot slot = true := by
      simpa [validRange] using accepted
    exact addSlotsRange_grows knows valid
  refused {slot topology} knows refused := by
    have invalid : validRange slot slot = false := by
      simpa [validRange] using refused
    exact addSlotsRange_refuses (Or.inl invalid)

theorem addSlotsReply_eq_error {outcome : Except String Unit} {reason : String} :
    addSlotsReply outcome = Value.error reason ↔ outcome = .error reason := by
  cases outcome with
  | ok => simp [addSlotsReply, Value.ok]
  | error other => simp [addSlotsReply]

/-- A failed `CLUSTER ADDSLOTS` does no harm if its first slot is refused
already. -/
theorem addSlots_unharmed_iff (nodeId : String) (slots : List UInt16)
    (topology : ClusterTopology) :
    (∀ reason, (Command.addSlots nodeId slots topology).1 =
        Value.error reason →
      SameSlots topology (Command.addSlots nodeId slots topology).2) ↔
      (Knows nodeId topology → ∀ first ∈ slots.head?, first < hashSlots →
        ∀ slot ∈ slots, slot < hashSlots) := by
  simp only [addSlots_eq_applyAll, addSlotsReply_eq_error]
  by_cases knows : Knows nodeId topology
  · have exactly : Unharmed SameSlots topology
        (applyAll (addSlot nodeId) slots topology) ↔ _ :=
      Stepwise.unharmed_iff (decides_addSlot nodeId) SameSlots.refl
        (fun same => same.rangeCount_eq nodeId) knows
    simp only [decide_eq_true_eq] at exactly
    exact exactly.trans ⟨fun all _ => all, fun all => all knows⟩
  · refine iff_of_true ?_ fun known => absurd known knows
    intro reason _
    rw [Stepwise.applyAll_of_refusing
      fun slot => addSlotsRange_refuses (Or.inr knows)]
    exact SameSlots.refl topology

end Commands

/-- A single range is assigned as a whole or not at all.  A specification, or a
`CLUSTER ADDSLOTS`, for a known node fails without a trace exactly if nothing is
refused after something has been accepted. -/
theorem slotUpdates_unharmed_iff (hasher : String → UInt64)
    (arrangement : Arrangement) (topology : ClusterTopology)
    (nodeId spec : String) (slots : List UInt16) :
    (∀ start last, Unharmed SameSlots topology
      (applyAll (addRange nodeId) [(start, last)] topology)) ∧
    (Unharmed SameSlots topology (topology.parseAndAssignSlots nodeId spec) ↔
      (Knows nodeId topology →
        ∀ first ∈ (pieces spec).head?, acceptsPiece first = true →
          ∀ piece ∈ pieces spec, acceptsPiece piece = true)) ∧
    ((∀ reason, (Command.executeCluster hasher arrangement topology
          (.addSlots slots)).1 = Value.error reason →
        SameSlots topology (Command.executeCluster hasher arrangement topology
          (.addSlots slots)).2) ↔
      ∀ me ∈ topology.myself, Knows me.id topology →
        ∀ first ∈ slots.head?, first < hashSlots →
          ∀ slot ∈ slots, slot < hashSlots) := by
  refine ⟨fun start last => Stepwise.unharmed_of_step SameSlots.refl _ topology,
    topology.parseAndAssignSlots_unharmed_iff nodeId spec, ?_⟩
  rw [Command.executeCluster]
  cases topology.myself with
  | none =>
      refine iff_of_true ?_ (by rintro _ ⟨⟩)
      rintro reason ⟨⟩
  | some me =>
      simp only [Option.mem_some_iff, forall_eq']
      exact addSlots_unharmed_iff me.id slots topology

/-- The first part of a specification stays assigned when the second is
refused, and so does the first slot of a command. -/
theorem refused_update_leaves_slots :
    let topology := new (.new "n" "10.0.0.1" 6379 16379 true true)
    (∃ reason, (topology.parseAndAssignSlots "n" "0-5,99999").1 =
        .error reason ∧
      ¬ SameSlots topology (topology.parseAndAssignSlots "n" "0-5,99999").2) ∧
    ∃ reason, (Command.executeCluster (fun _ => 0) .front topology
          (.addSlots [1, 20000])).1 = Value.error reason ∧
      ¬ SameSlots topology (Command.executeCluster (fun _ => 0) .front topology
        (.addSlots [1, 20000])).2 := by
  intro topology
  have knows : Knows "n" topology := by
    rw [Knows, lookup_new]
    rfl
  constructor
  · have split : pieces "0-5,99999" = ["0-5", "99999"] := by decide
    have harmed := (topology.parseAndAssignSlots_unharmed_iff "n"
      "0-5,99999").not.mpr fun together => by
        have all := together knows "0-5" (by rw [split]; rfl) (by decide)
          "99999" (by rw [split]; simp)
        revert all
        decide
    rw [Unharmed] at harmed
    push Not at harmed
    exact harmed
  · have harmed := (addSlots_unharmed_iff "n" [1, 20000] topology).not.mpr
      fun together => by
        have all := together knows 1 rfl (by decide) 20000 (by simp)
        revert all
        decide
    push Not at harmed
    have me : topology.myself = some (.new "n" "10.0.0.1" 6379 16379 true true) :=
      (lookup_new _ _).trans (if_pos rfl)
    rw [Command.executeCluster, me]
    exact harmed

end ClusterTopology

end RustiCache
