import RustiCache.SlotOwnership
import RustiCache.StreamReplays

/-!
# What commands write

Without memory bound and without expiring keys, a command changes the store by
its writes: a `SET` binds its key, a `DEL` removes its keys, and every other
command leaves the store as it is.  Which writes change nothing can be seen from
the contents.
-/

namespace RustiCache

/-- Removals leave nothing at their keys. -/
theorem KeyWrite.applyAll_removals {κ ν : Type} [DecidableEq κ]
    (store : κ → Option ν) (names : List κ) (key : κ) :
    applyAll store (names.map .remove) key =
      if key ∈ names then none else store key := by
  induction names generalizing store with
  | nil => simp [applyAll]
  | cons name names ih =>
      change applyAll (Function.update store name none) (names.map .remove) key =
        _
      rw [ih]
      by_cases own : key = name
      · simp [own]
      · simp [own]

namespace Command

variable {hasher : String → UInt64}

/-- The command sets no expiry. -/
def Unexpiring : Command → Prop
  | set _ _ pxMs => pxMs = none
  | _ => True

instance : DecidablePred Unexpiring
  | set _ _ pxMs => inferInstanceAs (Decidable (pxMs = none))
  | auth _ _ | quit | ping _ | echo _ | get _ | del _ | «exists» _ | keys _
  | info _ | replConf _ | psync _ _ | cluster _ | command =>
      inferInstanceAs (Decidable True)

/-- The writes of a command without expiry. -/
def writes (cmd : Command) : List StoreWrite :=
  ((WriteStage.ofCommand cmd).map WriteStage.remaining).getD []

/-- The command writes what is stored already. -/
def Redundant (contents : TimedMap String Bytes Instant) : Command → Prop
  | set key value _ => contents key = some (value, none)
  | del names => ∀ key ∈ names, contents key = none
  | _ => True

instance (contents : TimedMap String Bytes Instant) :
    DecidablePred (Redundant contents)
  | set key value _ =>
      inferInstanceAs (Decidable (contents key = some (value, none)))
  | del names =>
      inferInstanceAs (Decidable (∀ key ∈ names, contents key = none))
  | auth _ _ | quit | ping _ | echo _ | get _ | «exists» _ | keys _
  | info _ | replConf _ | psync _ _ | cluster _ | command =>
      inferInstanceAs (Decidable True)

/-- Redundant writes are those that change nothing. -/
theorem applyAll_writes_eq_iff {cmd : Command} (unexpiring : cmd.Unexpiring)
    (contents : TimedMap String Bytes Instant) :
    KeyWrite.applyAll contents cmd.writes = contents ↔
      cmd.Redundant contents := by
  cases cmd with
  | set key value pxMs =>
      cases unexpiring
      exact Function.update_eq_self_iff.trans eq_comm
  | del names =>
      change KeyWrite.applyAll contents (names.map .remove) = contents ↔
        ∀ key ∈ names, contents key = none
      constructor
      · intro same key member
        rw [← congrFun same key, KeyWrite.applyAll_removals, if_pos member]
      · intro absent
        ext1 key
        rw [KeyWrite.applyAll_removals]
        split
        next member => exact (absent key member).symm
        next => rfl
  | _ => exact iff_of_true rfl trivial

theorem lasting_delKeys {db : Db hasher} (names : List String)
    (lasting : db.contents.Lasting) :
    (delKeys names db).2.contents.Lasting := by
  intro key value deadline bound
  rcases within_delKeys names db key with same | gone
  · rw [same] at bound
    exact lasting key value deadline bound
  · rw [gone] at bound
    cases bound

theorem contents_existsKeys {db : Db hasher} (lasting : db.contents.Lasting)
    (clock : Nat → Instant) (reading : Nat) (names : List String) :
    (existsKeys clock reading names db).2.contents = db.contents ∧
      (existsKeys clock reading names db).2.maxMemoryBytes =
        db.maxMemoryBytes := by
  induction names generalizing reading db with
  | nil => exact ⟨rfl, rfl⟩
  | cons key names ih =>
      have first : (db.exists (clock reading) key).2.contents = db.contents :=
        (db.contents_get (clock reading) key).eq_of_lasting lasting
      have bound : (db.exists (clock reading) key).2.maxMemoryBytes =
          db.maxMemoryBytes :=
        db.maxMemoryBytes_get (clock reading) key
      obtain ⟨contents, rest⟩ := ih (first ▸ lasting) (reading + 1)
      exact ⟨contents.trans first, rest.trans bound⟩

/-- One store is what writes make of another, and has no deadlines. -/
structure Makes (writes : List StoreWrite) (before after : Db hasher) :
    Prop where
  contents : after.contents = KeyWrite.applyAll before.contents writes
  bound : after.maxMemoryBytes = before.maxMemoryBytes
  lasting : after.contents.Lasting

theorem makes_nil {before after : Db hasher}
    (lasting : before.contents.Lasting)
    (contents : after.contents = before.contents)
    (bound : after.maxMemoryBytes = before.maxMemoryBytes) :
    Makes [] before after :=
  ⟨contents, bound, contents ▸ lasting⟩

theorem Makes.trans {before between after : Db hasher}
    {first second : List StoreWrite} (earlier : Makes first before between)
    (later : Makes second between after) :
    Makes (first ++ second) before after where
  contents := by
    rw [later.contents, earlier.contents, KeyWrite.applyAll_append]
  bound := later.bound.trans earlier.bound
  lasting := later.lasting

section Execution

variable {server : ServerState hasher}
  (unbounded : server.db.maxMemoryBytes = 0)
  (lasting : server.db.contents.Lasting)

include unbounded lasting

/-- A command that is executed makes its writes. -/
theorem perform_makes {cmd : Command} (unexpiring : cmd.Unexpiring)
    (moment : Moment) (rawCmd : Option Bytes) (isAuthenticated : Bool) :
    Makes cmd.writes server.db
      (cmd.perform moment server rawCmd isAuthenticated).server.db := by
  have idle : Makes [] server.db server.db := makes_nil lasting rfl rfl
  cases cmd with
  | ping message => cases message <;> exact idle
  | get key =>
      have same := (server.db.contents_get (moment.clock 0) key).eq_of_lasting
        lasting
      exact makes_nil lasting same
        (server.db.maxMemoryBytes_get (moment.clock 0) key)
  | set key value pxMs =>
      cases unexpiring
      obtain ⟨contents, bound⟩ :=
        contents_set_unbounded unbounded moment key value
      rw [perform, (propagate_db _ rawCmd).1]
      refine ⟨contents, bound.trans unbounded.symm, ?_⟩
      change TimedMap.Lasting (Db.contents (server.db.set _ _ key value none))
      rw [contents]
      exact lasting.write key value
  | del names =>
      have deleted : Makes (del names).writes server.db
          (delKeys names server.db).2 :=
        ⟨contents_delKeys names server.db,
          maxMemoryBytes_delKeys names server.db, lasting_delKeys names lasting⟩
      simp only [perform]
      split
      next => rwa [(propagate_db _ rawCmd).1]
      next => exact deleted
  | «exists» names =>
      obtain ⟨contents, bound⟩ := contents_existsKeys lasting moment.clock 0
        names
      exact makes_nil lasting contents bound
  | cluster subcommand =>
      rw [perform]
      cases server.cluster <;> exact idle
  | _ => exact idle

theorem apply_makes {cmd : Command} (unexpiring : cmd.Unexpiring)
    (moment : Moment) :
    Makes cmd.writes server.db (cmd.apply moment server).db :=
  @perform_makes hasher { server with cluster := none } unbounded lasting cmd
    unexpiring moment none true

end Execution

/-- Execute commands of the stream in order, each at its own moment. -/
def applyInOrder (moments : Nat → Moment) (server : ServerState hasher) :
    List Command → ServerState hasher
  | [] => server
  | cmd :: cmds =>
      applyInOrder (fun index => moments (index + 1))
        (cmd.apply (moments 0) server) cmds

theorem applyInOrder_makes {server : ServerState hasher}
    (unbounded : server.db.maxMemoryBytes = 0)
    (lasting : server.db.contents.Lasting) (moments : Nat → Moment)
    {cmds : List Command} (unexpiring : ∀ cmd ∈ cmds, cmd.Unexpiring) :
    Makes (cmds.flatMap writes) server.db
      (applyInOrder moments server cmds).db := by
  induction cmds generalizing moments server with
  | nil => exact makes_nil lasting rfl rfl
  | cons cmd cmds ih =>
      obtain ⟨first, later⟩ := List.forall_mem_cons.mp unexpiring
      have applied := apply_makes unbounded lasting first (moments 0)
      rw [List.flatMap_cons]
      exact applied.trans (ih (applied.bound.trans unbounded) applied.lasting _
        later)

end Command

end RustiCache
