import RustiCache.CommandBounds
import RustiCache.CommandPanics

/-!
# Handling a value without a panic

The counts and offsets computed from a value of the program are machine numbers.
What remains is the sum that `CLUSTER MEET` takes from a client's port, and for
`SET` the entry size and the deadline.
-/

namespace RustiCache

namespace Command

section Execution

open RustiCache.Checked (add_eq ok_bind error_bind pure_eq)

variable {hasher : String → UInt64}

/-- The sums of an executed command are machine numbers. -/
def Fits (moment : Moment) (server : ServerState hasher) : Command → Prop
  | set key value pxMs =>
      (asBytes key).length + value.length + Entry.structSize < 2 ^ 64 ∧
        ∀ ms ∈ pxMs,
          moment.clock 0 + ms.toNat * nanosPerMilli < instantLimit
  | cluster (.meet _ port) =>
      server.cluster.isSome = true → port.toNat + 10000 < 2 ^ 16
  | _ => True

theorem deadline_eq {now : Instant} {pxMs : Option UInt64}
    (fits : ∀ ms ∈ pxMs, now + ms.toNat * nanosPerMilli < instantLimit) :
    Checked.deadline now pxMs =
      .ok (pxMs.map fun ms => now + ms.toNat * nanosPerMilli) := by
  cases pxMs with
  | none => rfl
  | some ms =>
      rw [Checked.deadline, add_eq (fits ms rfl)]
      rfl

theorem deadline_overflow {now : Instant} {pxMs : Option UInt64}
    (large : ¬ ∀ ms ∈ pxMs, now + ms.toNat * nanosPerMilli < instantLimit) :
    Checked.deadline now pxMs = .error .overflow := by
  cases pxMs with
  | none => exact absurd (by rintro ms ⟨⟩) large
  | some ms =>
      have beyond : ¬ now + ms.toNat * nanosPerMilli < instantLimit := by
        intro fits
        apply large
        rintro other ⟨⟩
        exact fits
      rw [Checked.deadline, RustiCache.Checked.add, if_neg beyond]
      rfl

theorem executeCluster_eq (hasher : String → UInt64) (moment : Moment)
    (topology : ClusterTopology) {subcommand : ClusterSubcommand}
    (bounded : (cluster subcommand).Bounded)
    (fits : ∀ ip port, subcommand = .meet ip port →
      port.toNat + 10000 < 2 ^ 16) :
    Checked.executeCluster hasher moment.arrangement topology subcommand =
      .ok (executeCluster hasher moment.arrangement topology subcommand) := by
  cases subcommand with
  | keySlot key =>
      rw [Checked.executeCluster, RustiCache.Checked.keySlot_eq bounded]
      rfl
  | info => rfl
  | nodes => rfl
  | slots => rfl
  | meet ip port =>
      have busPort : UInt16.ofNat (port.toNat + 10000) = port + 10000 := by
        rw [UInt16.ofNat_add, UInt16.ofNat_toNat]
        rfl
      rw [Checked.executeCluster, add_eq (fits ip port rfl), ok_bind, busPort]
      rfl
  | addSlots slots =>
      rw [Checked.executeCluster, executeCluster]
      cases topology.myself with
      | none => rfl
      | some me => exact Checked.addSlots_eq me.id slots topology

/-- Where its sums fit, an executed command does not panic. -/
theorem perform_eq {moment : Moment} {server : ServerState hasher}
    {cmd : Command} (bounded : cmd.Bounded) (fits : cmd.Fits moment server)
    (rawCmd : Option Bytes) (isAuthenticated : Bool) :
    Checked.perform moment server rawCmd isAuthenticated cmd =
      .ok (perform moment server rawCmd isAuthenticated cmd) := by
  cases cmd with
  | ping message => cases message <;> rfl
  | echo message => rfl
  | get key =>
      rw [Checked.perform, Db.Checked.get_eq]
      rfl
  | set key value pxMs =>
      rw [Checked.perform, deadline_eq fits.2, ok_bind,
        Db.Checked.set_eq fits.1]
      rfl
  | del names =>
      rw [Checked.perform, Checked.delKeys_eq names 0 server.db (by
        rw [Nat.zero_add]
        exact bounded), Nat.zero_add]
      rfl
  | «exists» names =>
      rw [Checked.perform, Checked.existsKeys_eq moment.clock 0 names 0
        server.db (by
          rw [Nat.zero_add]
          exact bounded), Nat.zero_add]
      rfl
  | keys pattern => rfl
  | info section_ => rfl
  | replConf args =>
      rw [Checked.perform, Checked.executeReplConf_eq]
      rfl
  | psync replId offset => rfl
  | auth username password => rfl
  | cluster subcommand =>
      rw [Checked.perform, perform]
      cases joined : server.cluster with
      | none => rfl
      | some topology =>
          have execution := executeCluster_eq hasher moment topology bounded (by
            rintro ip port rfl
            exact fits (by rw [joined]; rfl))
          simp only [execution, ok_bind, pure_eq]
  | quit => rfl
  | command => rfl

/-- Where one of its sums does not fit, an executed command panics. -/
theorem perform_overflow {moment : Moment} {server : ServerState hasher}
    {cmd : Command} (large : ¬ cmd.Fits moment server)
    (rawCmd : Option Bytes) (isAuthenticated : Bool) :
    Checked.perform moment server rawCmd isAuthenticated cmd =
      .error .overflow := by
  cases cmd with
  | set key value pxMs =>
      rw [Checked.perform]
      by_cases timely : ∀ ms ∈ pxMs,
          moment.clock 0 + ms.toNat * nanosPerMilli < instantLimit
      · rw [deadline_eq timely, ok_bind,
          Db.Checked.set_overflow fun fits => large ⟨fits, timely⟩]
        rfl
      · rw [deadline_overflow timely]
        rfl
  | cluster subcommand =>
      cases subcommand with
      | meet ip port =>
          rw [Fits, Classical.not_imp] at large
          obtain ⟨topology, joined⟩ := Option.isSome_iff_exists.mp large.1
          rw [Checked.perform, joined]
          simp only [Checked.executeCluster, RustiCache.Checked.add,
            if_neg large.2, error_bind]
      | _ => exact absurd trivial large
  | _ => exact absurd trivial large

section Handling

variable (moment : Moment) (server : ServerState hasher)
  (rawCmd : Option Bytes) (requirepass : Option String)
  (isAuthenticated : Bool)

/-- The command is executed and not refused for want of a password. -/
def Admitted : Prop :=
  requirepass = none ∨ isAuthenticated = true

theorem execute_eq {cmd : Command} (bounded : cmd.Bounded)
    (fits : Admitted requirepass isAuthenticated → cmd.Fits moment server) :
    Checked.execute moment server rawCmd requirepass isAuthenticated cmd =
      .ok (execute moment server rawCmd requirepass isAuthenticated cmd) := by
  cases requirepass with
  | none => exact perform_eq bounded (fits (Or.inl rfl)) rawCmd isAuthenticated
  | some pass =>
      cases isAuthenticated with
      | false => rfl
      | true => exact perform_eq bounded (fits (Or.inr rfl)) rawCmd true

theorem execute_overflow {cmd : Command}
    (admitted : Admitted requirepass isAuthenticated)
    (large : ¬ cmd.Fits moment server) :
    Checked.execute moment server rawCmd requirepass isAuthenticated cmd =
      .error .overflow := by
  cases requirepass with
  | none => exact perform_overflow large rawCmd isAuthenticated
  | some pass =>
      rcases admitted with ⟨⟨⟩⟩ | rfl
      exact perform_overflow large rawCmd true

/-- Handling a value of the program returns without a panic exactly if the
value is no command, the command is refused for want of a password, or its sums
fit: the entry size and the deadline of a `SET`, and the bus port of a
`CLUSTER MEET` on a cluster node. -/
theorem handle_returns_iff {value : Value} (resident : value.Resident) :
    (∃ outcome, Checked.handle moment server rawCmd requirepass isAuthenticated
        value = .ok outcome) ↔
      ∀ cmd, fromValue value = .ok cmd →
        Admitted requirepass isAuthenticated → cmd.Fits moment server := by
  have readable : Checked.fromValue value = .ok (fromValue value) := by
    apply Checked.fromValue_eq
    rintro items rfl
    exact resident.length_lt
  rw [Checked.handle, readable, ok_bind]
  cases read : fromValue value with
  | error reason =>
      refine iff_of_true ⟨_, rfl⟩ ?_
      rintro cmd ⟨⟩
  | ok cmd =>
      have bounded := bounded_of_fromValue resident read
      by_cases fits : Admitted requirepass isAuthenticated →
          cmd.Fits moment server
      · refine iff_of_true ?_ ?_
        · simp only [execute_eq moment server rawCmd requirepass isAuthenticated
            bounded fits, ok_bind, pure_eq]
          exact ⟨_, rfl⟩
        · rintro other ⟨⟩
          exact fits
      · refine iff_of_false ?_ fun all => fits (all cmd rfl)
        rw [Classical.not_imp] at fits
        simp only [execute_overflow moment server rawCmd requirepass
          isAuthenticated fits.1 fits.2, error_bind]
        rintro ⟨outcome, ⟨⟩⟩

end Handling

/-- A server that is the only node of its cluster. -/
def loneNode : ServerState fun _ => 0 where
  db := .new _
  replState := .newMaster none
  channels := fun _ => none
  cluster := some (.new (.new "n" "127.0.0.1" 7000 17000 true true))

def firstMoment : Moment := ⟨fun _ => 0, .front⟩

/-- `CLUSTER MEET 127.0.0.1` with a port. -/
def meetFrame (port : String) : Value :=
  Value.bulkArray [asBytes "CLUSTER", asBytes "MEET", asBytes "127.0.0.1",
    asBytes port]

theorem handle_returns_iff_meet :
    ∃ outcome, Checked.handle firstMoment loneNode none none false
      (meetFrame "55535") = .ok outcome := by
  have resident : (meetFrame "55535").Resident := by
    unfold Value.Resident
    decide
  apply (handle_returns_iff firstMoment loneNode none none false resident).mpr
  intro cmd read _
  have meets : fromValue (meetFrame "55535") =
      .ok (cluster (.meet "127.0.0.1" 55535)) := by decide
  rw [meets] at read
  cases read
  intro _
  decide

/-- The bus port of a high port overflows. -/
theorem handle_panics_on_high_port :
    Checked.handle firstMoment loneNode none none false
      (meetFrame "60000") = .error .overflow := by
  have meets : Checked.fromValue (meetFrame "60000") =
      .ok (.ok (cluster (.meet "127.0.0.1" 60000))) := by decide
  have large : ¬ (cluster (.meet "127.0.0.1" 60000)).Fits firstMoment
      loneNode := by
    intro fits
    have small := fits rfl
    revert small
    decide
  rw [Checked.handle, meets, ok_bind]
  simp only [execute_overflow firstMoment loneNode none none false (Or.inl rfl)
    large, error_bind]

end Execution

end Command

end RustiCache
