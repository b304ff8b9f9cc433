import RustiCache.CommandWrites
import RustiCache.PropagationLog

/-!
# The writes in the log

On a master without memory bound and without expiring keys, what a command does
to the store is what its propagated frame writes: a command that propagates
nothing leaves the store alone.  So the store is what the log makes of it.
-/

namespace RustiCache

namespace Command

variable {hasher : String → UInt64}

/-- The writes of a frame of the log. -/
def frameWrites (raw : Bytes) : List StoreWrite :=
  (writesOf raw).getD []

theorem writesOf_of_decoded {raw : Bytes} {cmd : Command} {stage : WriteStage}
    (frame : Value.IsFrame raw)
    (decoded : fromValue (Value.ofFrame raw) = .ok cmd)
    (isWrite : WriteStage.ofCommand cmd = some stage) :
    writesOf raw = some stage.remaining := by
  have found : Value.attempt raw =
      .complete (Value.ofFrame raw) raw.length :=
    frame
  rw [writesOf, ofRaw, found]
  simp only [if_true, decoded, Except.toOption, Option.bind_some, isWrite,
    Option.map_some]

/-- What propagated frames make of a store. -/
structure Enacts (raws : List Bytes) (before after : Db hasher) : Prop where
  contents : after.contents =
    KeyWrite.applyAll before.contents (raws.flatMap frameWrites)
  bound : after.maxMemoryBytes = before.maxMemoryBytes
  lasting : after.contents.Lasting
  written : ∀ raw ∈ raws, (writesOf raw).isSome

theorem enacts_nil {before after : Db hasher}
    (lasting : before.contents.Lasting)
    (contents : after.contents = before.contents)
    (bound : after.maxMemoryBytes = before.maxMemoryBytes) :
    Enacts [] before after :=
  ⟨contents, bound, contents ▸ lasting, nofun⟩

theorem enacts_frame {raw : Bytes} {writes : List StoreWrite}
    (raws : writesOf raw = some writes) {before after : Db hasher}
    (contents : after.contents = KeyWrite.applyAll before.contents writes)
    (bound : after.maxMemoryBytes = before.maxMemoryBytes)
    (lasting : after.contents.Lasting) : Enacts [raw] before after where
  contents := by
    rw [contents, List.flatMap_cons, List.flatMap_nil, List.append_nil,
      frameWrites, raws, Option.getD_some]
  bound := bound
  lasting := lasting
  written := by simp [raws]

/-- A `DEL` that counts nothing removes nothing. -/
theorem contents_delKeys_of_zero (names : List String) {db : Db hasher}
    (none : (delKeys names db).1 = 0) :
    (delKeys names db).2.contents = db.contents := by
  induction names generalizing db with
  | nil => rfl
  | cons key names ih =>
      have answer := db.del_answer key
      simp only [delKeys] at none ⊢
      cases removed : (db.del key).1 with
      | true => simp [removed] at none
      | false =>
          simp only [removed, Bool.false_eq_true, if_false] at none
          rw [ih none, db.contents_del]
          rw [removed, Eq.comm, Option.isSome_eq_false_iff,
            Option.isNone_iff_eq_none] at answer
          exact Function.update_eq_self_iff.mpr answer.symm

section Execution

variable {server : ServerState hasher} {rawCmd : Bytes} {cmd : Command}
  (unbounded : server.db.maxMemoryBytes = 0)
  (lasting : server.db.contents.Lasting)
  (master : server.replState.isReplica = false)
  (frame : Value.IsFrame rawCmd)
  (decoded : fromValue (Value.ofFrame rawCmd) = .ok cmd)
  (unexpiring : ∀ key value pxMs, cmd = .set key value pxMs → pxMs = none)

include unbounded lasting master frame decoded unexpiring

/-- The effect of a command is that of what it propagates. -/
theorem perform_enacts (moment : Moment) {requirepass : Option String}
    {isAuthenticated : Bool}
    (allowed : (requirepass.isSome && !isAuthenticated) = false) :
    Enacts (cmd.propagation server rawCmd requirepass isAuthenticated) server.db
      (cmd.perform moment server (some rawCmd) isAuthenticated).server.db := by
  have lasts : cmd.Unexpiring := by
    cases cmd with
    | set key value pxMs => exact unexpiring key value pxMs rfl
    | _ => trivial
  have makes := perform_makes unbounded lasting lasts moment (some rawCmd)
    isAuthenticated
  cases cmd with
  | set key value pxMs =>
      cases lasts
      have raw := writesOf_of_decoded frame decoded rfl
      simp only [propagation, allowed, master, Bool.or_self,
        Bool.false_eq_true, if_false]
      exact enacts_frame raw makes.contents makes.bound makes.lasting
  | del names =>
      have raw := writesOf_of_decoded frame decoded rfl
      simp only [propagation, allowed, master, Bool.or_self, Bool.false_or]
      cases none : (delKeys names server.db).1 == 0 with
      | true =>
          -- the writes are there, but there was nothing to remove
          rw [beq_iff_eq] at none
          refine enacts_nil lasting ?_ makes.bound
          rw [makes.contents]
          change KeyWrite.applyAll _ (names.map .remove) = _
          rw [← contents_delKeys]
          exact contents_delKeys_of_zero names none
      | false =>
          rw [if_neg Bool.false_ne_true]
          exact enacts_frame raw makes.contents makes.bound makes.lasting
  | _ => exact enacts_nil lasting makes.contents makes.bound

theorem execute_enacts (moment : Moment) (requirepass : Option String)
    (isAuthenticated : Bool) :
    Enacts (cmd.propagation server rawCmd requirepass isAuthenticated) server.db
      (cmd.execute moment server (some rawCmd) requirepass
        isAuthenticated).server.db := by
  cases barred : requirepass.isSome && !isAuthenticated with
  | false =>
      rw [execute_of_allowed moment server _ barred]
      exact perform_enacts unbounded lasting master frame decoded unexpiring
        moment barred
  | true =>
      obtain ⟨unchanged, nothing⟩ :=
        execute_of_barred moment server rawCmd barred cmd
      rw [unchanged, nothing]
      exact enacts_nil lasting rfl rfl

end Execution

end Command

namespace ServerPool

open Command (Enacts frameWrites enacts_nil)

variable {hasher : String → UInt64} {config : PoolConfig}
  {pool next : ServerPool hasher} {server : ServerState hasher}
  {base : TimedMap String Bytes Instant} {log : List Bytes}

/-- The store is what the frames after a log make of some contents. -/
structure Relayed (base : TimedMap String Bytes Instant) (log : List Bytes)
    (db : Db hasher) (propagated : List Bytes) : Prop where
  earlier : log <+: propagated
  contents : db.contents = KeyWrite.applyAll base
    ((propagated.drop log.length).flatMap frameWrites)
  unbounded : db.maxMemoryBytes = 0
  lasting : db.contents.Lasting
  written : ∀ raw ∈ propagated, (Command.writesOf raw).isSome

/-- The contents as a base of their own. -/
theorem Relayed.rebase {db : Db hasher} {propagated : List Bytes}
    (relayed : Relayed base log db propagated) :
    Relayed db.contents propagated db propagated where
  earlier := List.prefix_rfl
  contents := by
    rw [List.drop_length]
    rfl
  unbounded := relayed.unbounded
  lasting := relayed.lasting
  written := relayed.written

theorem Relayed.act {db acted : Db hasher} {propagated raws : List Bytes}
    (relayed : Relayed base log db propagated)
    (enacts : Enacts raws db acted) :
    Relayed base log acted (propagated ++ raws) where
  earlier := relayed.earlier.trans (List.prefix_append _ _)
  contents := by
    rw [List.drop_append_of_le_length relayed.earlier.length_le,
      List.flatMap_append, KeyWrite.applyAll_append, ← relayed.contents]
    exact enacts.contents
  unbounded := enacts.bound.trans relayed.unbounded
  lasting := enacts.lasting
  written := List.forall_mem_append.mpr ⟨relayed.written, enacts.written⟩

/-- No command sets an expiry, and only commands are propagated. -/
def Unexpiring (pool : ServerPool hasher) : PoolAction → Prop
  | .process channel _ =>
      ∀ client rawCmd key value pxMs, pool.clients channel = some client →
        client.stage = .checked rawCmd (.set key value pxMs) → pxMs = none
  | .propagate _ => False
  | _ => True

/-- Every step of the master writes what it propagates. -/
theorem relayed_step
    (relayed : Relayed base log pool.server.db pool.propagated)
    (logged : Logged server pool)
    (master : pool.server.replState.isReplica = false) {action : PoolAction}
    (unexpiring : Unexpiring pool action)
    (taken : pool.step config action = some next) :
    Relayed base log next.server.db next.propagated := by
  cases transition_of_step taken with
  | propagate rawResp => exact unexpiring.elim
  | purge now samplePerShard =>
      have contents := (pool.server.db.contents_purgeExpiredSample now
        samplePerShard).eq_of_lasting relayed.lasting
      have bound := pool.server.db.maxMemoryBytes_call
        ⟨.purgeExpiredSample samplePerShard, now, .front⟩
      have purged := relayed.act (enacts_nil relayed.lasting contents bound)
      rwa [List.append_nil] at purged
  | @turn channel moment client acted connection stage found draining turned =>
      generalize begun : client.stage = before at turned
      cases turned with
      | finish moment rawCmd cmd =>
          obtain ⟨frame, decoded⟩ :=
            logged.decoded channel client found rawCmd cmd begun
          simp only [propagation, begun]
          refine relayed.act (Command.execute_enacts relayed.unbounded
            relayed.lasting master frame decoded ?_ moment config.requirepass
            client.connection.isAuthenticated)
          rintro key value pxMs rfl
          exact unexpiring client rawCmd key value pxMs found begun
      | _ =>
          rw [propagation_eq_nil begun (by rintro _ _ ⟨⟩), List.append_nil]
          exact relayed
  | _ => exact relayed

end ServerPool

end RustiCache
