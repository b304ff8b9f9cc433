import RustiCache.ActionRuns
import RustiCache.SlotAssignment

/-!
# Two records of who owns a slot

A topology says in its slot table who owns a slot, and each node lists its own
slots.  The two agree as long as no assignment takes a slot away from another
node and no node is entered with a list that the table does not confirm.
-/

namespace RustiCache

/-- The operations that change a topology. -/
inductive TopologyAction where
  | addNode (arrangement : Arrangement) (node : ClusterNode)
  | addSlotsRange (nodeId : String) (start last : UInt16)
  | parseAndAssignSlots (nodeId spec : String)
  | cluster (arrangement : Arrangement) (subcommand : ClusterSubcommand)

namespace ClusterTopology

variable (hasher : String → UInt64)

def step (topology : ClusterTopology) :
    TopologyAction → Option ClusterTopology
  | .addNode arrangement node => some (topology.addNode arrangement node)
  | .addSlotsRange nodeId start last =>
      match topology.addSlotsRange nodeId start last with
      | .ok next => some next
      | .error _ => some topology
  | .parseAndAssignSlots nodeId spec =>
      some (topology.parseAndAssignSlots nodeId spec).2
  | .cluster arrangement subcommand =>
      some (Command.executeCluster hasher arrangement topology subcommand).2

/-- The slot table gives a slot to the node that lists it. -/
def Agree (topology : ClusterTopology) : Prop :=
  ∀ slot < hashSlots, ∀ id, topology.ownerId slot = some id ↔
    ∃ node, AList.lookup id topology.nodes = some node ∧
      Listed slot node.slots

/-- No two nodes list the same slot. -/
def Disjoint (topology : ClusterTopology) : Prop :=
  ∀ slot < hashSlots, ∀ first second one other,
    AList.lookup first topology.nodes = some one →
    AList.lookup second topology.nodes = some other →
    Listed slot one.slots → Listed slot other.slots → first = second

theorem Agree.disjoint {topology : ClusterTopology} (agree : topology.Agree) :
    topology.Disjoint := by
  intro slot inside first second one other foundOne foundOther lists listsToo
  have byFirst := (agree slot inside first).mpr ⟨one, foundOne, lists⟩
  have bySecond := (agree slot inside second).mpr ⟨other, foundOther, listsToo⟩
  exact Option.some.inj (byFirst.symm.trans bySecond)

/-- A node that lists what the table gives to its id. -/
def Describes (topology : ClusterTopology) (node : ClusterNode) : Prop :=
  ∀ slot < hashSlots, topology.ownerId slot = some node.id ↔
    Listed slot node.slots

/-- Ranges without a slot of another node, or for a node that is not known. -/
def Vacant (topology : ClusterTopology) (nodeId : String)
    (ranges : List (UInt16 × UInt16)) : Prop :=
  (AList.lookup nodeId topology.nodes).isSome = true →
    ∀ slot < hashSlots, Listed slot ranges →
      ∀ id, topology.ownerId slot = some id → id = nodeId

/-- The operations that keep the two records together. -/
def Keeps (topology : ClusterTopology) : TopologyAction → Prop
  | .addNode _ node => topology.Describes node
  | .addSlotsRange nodeId start last =>
      validRange start last = true → topology.Vacant nodeId [(start, last)]
  | .parseAndAssignSlots nodeId spec =>
      topology.Vacant nodeId
        (acceptedRanges ((spec.toList.splitOn ',').map String.ofList))
  | .cluster _ (.meet ip port) =>
      ∀ slot < hashSlots,
        topology.ownerId slot ≠ some (ServerConfig.derivedId hasher ip port)
  | .cluster _ (.addSlots slots) =>
      topology.Vacant topology.myselfId (acceptedSlots slots)
  | .cluster _ _ => True

variable {hasher} {topology next : ClusterTopology}

theorem Granted.agree_iff {nodeId : String} {ranges : List (UInt16 × UInt16)}
    (granted : Granted topology nodeId ranges next) (agree : topology.Agree)
    (known : (AList.lookup nodeId topology.nodes).isSome = true) :
    next.Agree ↔ topology.Vacant nodeId ranges := by
  obtain ⟨node, found⟩ := Option.isSome_iff_exists.mp known
  constructor
  · intro agreeNext _ slot inside listed id owned
    by_contra differ
    -- the former owner still lists the slot, and the table has forgotten it
    obtain ⟨owner, foundOwner, lists⟩ := (agree slot inside id).mp owned
    have stillListed := (agreeNext slot inside id).mpr ⟨owner, by
      rw [granted.lookup_eq, if_neg differ, foundOwner], lists⟩
    rw [granted.ownerId_eq, if_pos listed] at stillListed
    exact differ (Option.some.inj stillListed).symm
  · intro vacant slot inside id
    rw [granted.ownerId_eq, granted.lookup_eq, found]
    by_cases same : id = nodeId
    · subst same
      rw [if_pos rfl, Option.map_some]
      have before := agree slot inside id
      rw [found] at before
      by_cases listed : Listed slot ranges
      · rw [if_pos listed]
        simp [listed_append, listed]
      · rw [if_neg listed, before]
        simp [listed_append, listed]
    · rw [if_neg same]
      by_cases listed : Listed slot ranges
      · rw [if_pos listed]
        constructor
        · intro own
          exact absurd (Option.some.inj own).symm same
        · intro lists
          have owned := (agree slot inside id).mpr lists
          exact absurd (vacant known slot inside listed id owned) same
      · rw [if_neg listed]
        exact agree slot inside id

theorem addNode_agree_iff (arrangement : Arrangement) (node : ClusterNode)
    (agree : topology.Agree) :
    (topology.addNode arrangement node).Agree ↔ topology.Describes node := by
  constructor
  · intro agreeNext slot inside
    have own := agreeNext slot inside node.id
    rw [lookup_addNode, if_pos rfl] at own
    exact own.trans (by simp)
  · intro describes slot inside id
    rw [lookup_addNode]
    by_cases same : id = node.id
    · subst same
      rw [if_pos rfl]
      exact (describes slot inside).trans (by simp)
    · rw [if_neg same]
      exact agree slot inside id

theorem vacant_of_unknown {nodeId : String}
    (unknown : AList.lookup nodeId topology.nodes = none)
    (ranges : List (UInt16 × UInt16)) : topology.Vacant nodeId ranges := by
  intro known
  rw [unknown] at known
  cases known

theorem addSlotsRange_step {nodeId : String} {start last : UInt16}
    (keyed : topology.Keyed)
    (taken : step hasher topology (.addSlotsRange nodeId start last) =
      some next) :
    next = topology ∧ (validRange start last = false ∨
        AList.lookup nodeId topology.nodes = none) ∨
      Granted topology nodeId [(start, last)] next ∧
        validRange start last = true ∧
        (AList.lookup nodeId topology.nodes).isSome = true := by
  rw [step] at taken
  cases valid : validRange start last with
  | false =>
      rw [addSlotsRange_of_invalid valid] at taken
      exact Or.inl ⟨(Option.some.inj taken).symm, Or.inl rfl⟩
  | true =>
      cases found : AList.lookup nodeId topology.nodes with
      | none =>
          rw [addSlotsRange_of_unknown valid found] at taken
          exact Or.inl ⟨(Option.some.inj taken).symm, Or.inr rfl⟩
      | some node =>
          have known : (AList.lookup nodeId topology.nodes).isSome = true := by
            rw [found]
            rfl
          obtain ⟨last, added, granted⟩ :=
            addSlotsRange_of_known keyed valid known
          rw [added] at taken
          cases taken
          exact Or.inr ⟨granted, rfl, rfl⟩

theorem addSlots_command_eq (keyed : topology.Keyed) (arrangement : Arrangement)
    (slots : List UInt16) :
    (Command.executeCluster hasher arrangement topology (.addSlots slots)).2 =
      if (AList.lookup topology.myselfId topology.nodes).isSome then
        (Command.addSlots topology.myselfId slots topology).2
      else
        topology := by
  rw [Command.executeCluster, myself]
  cases found : AList.lookup topology.myselfId topology.nodes with
  | none => rfl
  | some me =>
      dsimp only
      rw [keyed topology.myselfId me found]
      rfl

theorem keyed_executeCluster (keyed : topology.Keyed)
    (arrangement : Arrangement) (subcommand : ClusterSubcommand) :
    (Command.executeCluster hasher arrangement topology
      subcommand).2.Keyed := by
  cases subcommand with
  | meet ip port => exact keyed.addNode arrangement _
  | addSlots slots =>
      rw [addSlots_command_eq keyed]
      split
      next known => exact (addSlots_granted slots keyed known).keyed keyed
      next => exact keyed
  | _ => exact keyed

/-- Every operation keeps the nodes under their ids. -/
theorem keyed_of_step {action : TopologyAction} (keyed : topology.Keyed)
    (taken : step hasher topology action = some next) : next.Keyed := by
  cases action with
  | addNode arrangement node =>
      cases taken
      exact keyed.addNode arrangement node
  | addSlotsRange nodeId start last =>
      rcases addSlotsRange_step keyed taken with ⟨rfl, -⟩ | ⟨granted, -⟩
      · exact keyed
      · exact granted.keyed keyed
  | parseAndAssignSlots nodeId spec =>
      cases taken
      cases found : AList.lookup nodeId topology.nodes with
      | none =>
          rw [parseAndAssignSlots, assignParts_of_unknown _ found]
          exact keyed
      | some node =>
          exact (assignParts_granted _ keyed (by rw [found]; rfl)).keyed keyed
  | cluster arrangement subcommand =>
      cases taken
      exact keyed_executeCluster keyed arrangement subcommand

/-- The condition says exactly which operations keep the agreement. -/
theorem agree_step_iff {action : TopologyAction} (keyed : topology.Keyed)
    (agree : topology.Agree)
    (taken : step hasher topology action = some next) :
    next.Agree ↔ Keeps hasher topology action := by
  cases action with
  | addNode arrangement node =>
      cases taken
      exact addNode_agree_iff arrangement node agree
  | addSlotsRange nodeId start last =>
      rw [Keeps]
      rcases addSlotsRange_step keyed taken with
        ⟨rfl, invalid | unknown⟩ | ⟨granted, valid, known⟩
      · simp [invalid, agree]
      · simp [vacant_of_unknown unknown, agree]
      · rw [granted.agree_iff agree known]
        simp [valid]
  | parseAndAssignSlots nodeId spec =>
      cases taken
      rw [Keeps, parseAndAssignSlots]
      cases found : AList.lookup nodeId topology.nodes with
      | none =>
          rw [assignParts_of_unknown _ found]
          simp [vacant_of_unknown found, agree]
      | some node =>
          have known : (AList.lookup nodeId topology.nodes).isSome = true := by
            rw [found]
            rfl
          exact (assignParts_granted _ keyed known).agree_iff agree known
  | cluster arrangement subcommand =>
      cases taken
      cases subcommand with
      | meet ip port =>
          refine (addNode_agree_iff arrangement _ agree).trans ?_
          refine forall₂_congr fun slot _ => ?_
          exact iff_false_right (not_listed_nil slot)
      | addSlots slots =>
          rw [addSlots_command_eq keyed, Keeps]
          cases found : AList.lookup topology.myselfId topology.nodes with
          | none => simp [vacant_of_unknown found, agree]
          | some me =>
              have known : (AList.lookup topology.myselfId
                  topology.nodes).isSome = true := by
                rw [found]
                rfl
              exact (addSlots_granted slots keyed known).agree_iff agree known
      | _ => exact iff_of_true agree trivial

/-- A new topology has assigned nothing, and its node should list nothing. -/
theorem agree_new_iff (myself : ClusterNode) :
    (new myself).Agree ↔ ∀ slot < hashSlots, ¬ Listed slot myself.slots := by
  constructor
  · intro agree slot inside listed
    have owned := (agree slot inside myself.id).mpr
      ⟨myself, by rw [lookup_new, if_pos rfl], listed⟩
    rw [ownerId_new] at owned
    cases owned
  · intro empty slot inside id
    rw [ownerId_new]
    constructor
    · intro owned
      cases owned
    · rintro ⟨node, found, listed⟩
      rw [lookup_new] at found
      split at found
      next =>
        cases found
        exact absurd listed (empty slot inside)
      next => cases found

/-- The two records agree all along a run exactly if the first node lists nothing
and every operation keeps to what the table says. -/
theorem representations_agree_iff {myself : ClusterNode}
    {final : ClusterTopology} {actions : List TopologyAction}
    (reaches : Reaches (step hasher) (fun _ _ => True) (new myself) actions
      final) :
    (∀ past topology, past <+: actions →
        Reaches (step hasher) (fun _ _ => True) (new myself) past topology →
        topology.Agree ∧ topology.Disjoint) ↔
      (∀ slot < hashSlots, ¬ Listed slot myself.slots) ∧
        Reaches (step hasher) (Keeps hasher) (new myself) actions final := by
  rw [← agree_new_iff]
  refine Iff.trans ?_ (reaches.throughout_iff
    (fun keyed _ => keyed_of_step keyed) (fun keyed _ => agree_step_iff keyed)
    (keyed_new myself))
  exact ⟨fun along past topology early reached =>
      (along past topology early reached).1,
    fun along past topology early reached =>
      have agree := along past topology early reached
      ⟨agree, agree.disjoint⟩⟩

/-- A node that has been given slots from a specification. -/
theorem representations_agree_iff_twoRanges :
    ∃ final, Reaches (step fun _ => 0) (fun _ _ => True)
        (new (.new "a" "10.0.0.1" 6379 16379 true true))
        [.parseAndAssignSlots "a" "0-5,7"] final ∧
      ∀ past topology, past <+: [.parseAndAssignSlots "a" "0-5,7"] →
        Reaches (step fun _ => 0) (fun _ _ => True)
          (new (.new "a" "10.0.0.1" 6379 16379 true true)) past topology →
        topology.Agree ∧ topology.Disjoint := by
  have reaches : Reaches (step fun _ => 0) (fun _ _ => True)
      (new (.new "a" "10.0.0.1" 6379 16379 true true))
      [.parseAndAssignSlots "a" "0-5,7"] _ := .single trivial rfl
  refine ⟨_, reaches, (representations_agree_iff reaches).mpr ⟨?_, ?_⟩⟩
  · intro slot _
    exact not_listed_nil slot
  · refine .single ?_ rfl
    intro _ slot _ _ id owned
    rw [ownerId_new] at owned
    cases owned

/-- A slot that is assigned anew stays in the list of its former owner. -/
theorem slot_listed_twice :
    ∃ final, Reaches (step fun _ => 0) (fun _ _ => True)
        (new (.new "a" "10.0.0.1" 6379 16379 true true))
        [.addNode .front (.new "b" "10.0.0.2" 6379 16379 false true),
          .addSlotsRange "a" 0 0, .addSlotsRange "b" 0 0] final ∧
      final.ownerId 0 = some "b" ∧
      (AList.lookup "a" final.nodes).map ClusterNode.slots = some [(0, 0)] ∧
      (AList.lookup "b" final.nodes).map ClusterNode.slots = some [(0, 0)] ∧
      ¬ final.Agree ∧ ¬ final.Disjoint := by
  have ran : (runActions (step fun _ => 0)
      (new (.new "a" "10.0.0.1" 6379 16379 true true))
      [.addNode .front (.new "b" "10.0.0.2" 6379 16379 false true),
        .addSlotsRange "a" 0 0, .addSlotsRange "b" 0 0]).map (fun final =>
        decide (final.ownerId 0 = some "b" ∧
          (AList.lookup "a" final.nodes).map ClusterNode.slots =
            some [(0, 0)] ∧
          (AList.lookup "b" final.nodes).map ClusterNode.slots =
            some [(0, 0)])) = some true := by
    decide +kernel
  obtain ⟨final, reached, checked⟩ := Option.map_eq_some_iff.mp ran
  obtain ⟨owned, byFormer, byOwner⟩ := of_decide_eq_true checked
  obtain ⟨former, foundFormer, listsFormer⟩ :=
    Option.map_eq_some_iff.mp byFormer
  obtain ⟨owner, foundOwner, listsOwner⟩ := Option.map_eq_some_iff.mp byOwner
  have listed : Listed 0 [(0, 0)] := by decide
  refine ⟨final, reaches_of_runActions reached, owned, byFormer, byOwner,
    ?_, ?_⟩
  · intro agree
    have claimed := (agree 0 (by decide) "a").mpr
      ⟨former, foundFormer, listsFormer ▸ listed⟩
    rw [owned] at claimed
    exact absurd claimed (by decide)
  · intro disjoint
    have same := disjoint 0 (by decide) "a" "b" former owner foundFormer
      foundOwner (listsFormer ▸ listed) (listsOwner ▸ listed)
    exact absurd same (by decide)

end ClusterTopology

end RustiCache
