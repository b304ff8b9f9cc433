import RustiCache.CommandTranscripts
import RustiCache.LateWrites
import RustiCache.PropagationLog

/-!
# Commands as writes with a lifetime

A `SET` with the option `PX` binds its key for a lifetime that begins when the
command is executed, on a master as on a replica that replays the command.  On a
master without memory bound, every step changes the store by the writes that it
propagates, apart from bindings that have expired and keys that it deletes.
-/

namespace RustiCache

namespace TimedMap

theorem without_nil {κ ν τ : Type} [DecidableEq κ] (map : TimedMap κ ν τ) :
    map.without [] = map := by
  ext1 key
  simp [without]

theorem get_of_get_without {κ ν τ : Type} [DecidableEq κ] [LinearOrder τ]
    {map : TimedMap κ ν τ} {names : List κ} {now : τ} {key : κ} {value : ν}
    (live : (map.without names).get now key = some value) :
    map.get now key = some value := by
  by_cases listed : key ∈ names
  · have gone : map.without names key = none := if_pos listed
    rw [get_of_none gone] at live
    cases live
  · have same : map.without names key = map key := if_neg listed
    rwa [get_congr same] at live

end TimedMap

namespace Command

variable {hasher : String → UInt64}

/-- What a command writes. -/
def lateWrite : Command → LateWrite String Bytes Instant
  | set key value pxMs =>
      .set key value (pxMs.map fun ms => ms.toNat * nanosPerMilli)
  | del names => .remove names
  | _ => .remove []

/-- What a frame of the stream writes. -/
def valueWrite (value : Value) : LateWrite String Bytes Instant :=
  match fromValue value with
  | .ok cmd => cmd.lateWrite
  | .error _ => .remove []

/-- What a byte string of the log writes. -/
def logWrite (raw : Bytes) : LateWrite String Bytes Instant :=
  valueWrite (Value.ofFrame raw)

/-- A map that has served a command has taken its write. -/
theorem Served.eq_apply {clock : Nat → Instant}
    {map next : TimedMap String Bytes Instant} {cmd : Command} {written : Bytes}
    (served : Served clock map cmd written next) :
    next = cmd.lateWrite.apply (clock 0) map := by
  cases served with
  | set key value pxMs =>
      rw [lateWrite, LateWrite.apply, Option.map_map]
      rfl
  | del names => rfl
  | get | «exists» | keys => exact map.without_nil.symm
  | other elsewhere =>
      cases cmd with
      | set | del => cases elsewhere
      | _ => exact map.without_nil.symm

section Execution

variable {now later : Instant} {moment : Moment}
  (timely : Timely now later moment.clock) {server : ServerState hasher}
  (unbounded : server.db.maxMemoryBytes = 0)

include timely unbounded

theorem perform_late (rawCmd : Option Bytes) (isAuthenticated : Bool)
    (cmd : Command) :
    Follows later (cmd.lateWrite.apply (moment.clock 0) server.db.contents)
      (cmd.perform moment server rawCmd isAuthenticated).server.db := by
  obtain ⟨next, served, follows⟩ := perform_served timely
    ⟨TimedMap.Forgets.refl now server.db.contents, unbounded⟩ rawCmd
    isAuthenticated cmd
  rwa [served.eq_apply] at follows

/-- A frame of the stream is replayed as its write. -/
theorem replay_late (value : Value) :
    Follows later ((valueWrite value).apply (moment.clock 0) server.db.contents)
      (replay moment server value).db := by
  have idle : Follows later
      ((LateWrite.remove []).apply (moment.clock 0) server.db.contents)
      server.db := by
    rw [LateWrite.apply, TimedMap.without_nil]
    exact ⟨TimedMap.Forgets.refl later _, unbounded⟩
  unfold valueWrite replay executable
  cases fromValue value with
  | error reason => exact idle
  | ok cmd =>
      cases cmd with
      | replConf args => exact idle
      | _ =>
          exact @perform_late hasher now later moment timely
            { server with cluster := none } unbounded none true _

end Execution

/-- A command that a master executes is propagated if it binds a key. -/
theorem propagation_cases {server : ServerState hasher}
    (master : server.replState.isReplica = false)
    (rawCmd : Bytes) {requirepass : Option String} {isAuthenticated : Bool}
    (allowed : (requirepass.isSome && !isAuthenticated) = false)
    (cmd : Command) :
    cmd.propagation server rawCmd requirepass isAuthenticated = [rawCmd] ∨
      cmd.propagation server rawCmd requirepass isAuthenticated = [] ∧
        ∃ names, cmd.lateWrite = .remove names := by
  cases cmd with
  | set key value pxMs =>
      left
      rw [propagation, allowed, master]
      rfl
  | del names =>
      rw [propagation, allowed, master]
      split
      next => exact .inr ⟨rfl, names, rfl⟩
      next => exact .inl rfl
  | _ => exact .inr ⟨rfl, [], rfl⟩


end Command

open TimedMap (Outlives)

namespace ServerPool

open Command (logWrite)

variable {hasher : String → UInt64} {config : PoolConfig}
  {pool next : ServerPool hasher} {server : ServerState hasher}
  {now later : Instant}

/-- What a step of the master does is covered by what it propagates. -/
def Relays (now later : Instant) (pool next : ServerPool hasher) : Prop :=
  next.server.db.maxMemoryBytes = 0 ∧
    ∃ raws, next.propagated = pool.propagated ++ raws ∧
      ∀ writes copy, Outlives now pool.server.db.contents writes copy →
        Outlives later next.server.db.contents (writes ++ raws.map logWrite)
          copy

/-- A step that writes nothing. -/
theorem relays_idle (unbounded : pool.server.db.maxMemoryBytes = 0)
    (order : now ≤ later) (silent : next.propagated = pool.propagated)
    (bound : next.server.db.maxMemoryBytes = pool.server.db.maxMemoryBytes)
    (forgets : TimedMap.Forgets later pool.server.db.contents
      next.server.db.contents) : Relays now later pool next := by
  refine ⟨bound.trans unbounded, [], by rw [silent, List.append_nil],
    fun writes copy outlives => ?_⟩
  rw [List.map_nil, List.append_nil]
  exact outlives.forget order forgets

/-- A command is executed. -/
theorem relays_finish (unbounded : pool.server.db.maxMemoryBytes = 0)
    (master : pool.server.replState.isReplica = false) {moment : Moment}
    (timely : Timely now later moment.clock) {client : Client} {rawCmd : Bytes}
    {cmd : Command} (begun : client.stage = .checked rawCmd cmd)
    (decoded : Command.fromValue (Value.ofFrame rawCmd) = .ok cmd)
    (channel : ChannelId)
    (acted : next.server = (client.connection.turn (config.ofChannel channel)
      moment pool.server client.stage).1.server)
    (propagated : next.propagated =
      pool.propagated ++ propagation config pool.server client) :
    Relays now later pool next := by
  rw [begun, Connection.turn, Connection.finish] at acted
  dsimp only [PoolConfig.ofChannel] at acted
  rw [propagation, begun] at propagated
  dsimp only at propagated
  cases barred : config.requirepass.isSome &&
      !client.connection.isAuthenticated with
  | true =>
      obtain ⟨unchanged, nothing⟩ :=
        Command.execute_of_barred moment pool.server rawCmd barred cmd
      rw [unchanged] at acted
      rw [nothing, List.append_nil] at propagated
      refine relays_idle unbounded timely.order propagated ?_ ?_
      · rw [acted]
      · rw [acted]
        exact TimedMap.Forgets.refl _ _
  | false =>
      have follows := Command.perform_late timely unbounded (some rawCmd)
        client.connection.isAuthenticated cmd
      rw [Command.execute_of_allowed moment pool.server _ barred] at acted
      rw [← acted] at follows
      refine ⟨follows.unbounded, _, propagated, fun writes copy outlives => ?_⟩
      rcases Command.propagation_cases master rawCmd barred cmd with
        once | ⟨never, names, removes⟩
      · have isWrite : logWrite rawCmd = cmd.lateWrite := by
          rw [logWrite, Command.valueWrite, decoded]
        rw [once, List.map_singleton, isWrite]
        have written := outlives.write timely.begins (timely.ends 0)
          cmd.lateWrite
        exact written.forget (Nat.le_refl _) follows.forgets
      · rw [removes] at follows
        rw [never, List.map_nil, List.append_nil]
        have fewer : Outlives later
            ((LateWrite.remove names).apply (moment.clock 0)
              pool.server.db.contents) writes copy :=
          outlives.shrink timely.order fun _ _ _ _ live =>
            TimedMap.get_of_get_without live
        exact fewer.forget (Nat.le_refl _) follows.forgets

/-- Every step of a master, other than one that propagates by itself. -/
theorem relays_step (unbounded : pool.server.db.maxMemoryBytes = 0)
    (master : pool.server.replState.isReplica = false)
    (logged : Logged server pool) {action : PoolAction}
    (inTime : action.InTime now later)
    (own : ∀ rawResp, action ≠ .propagate rawResp)
    (taken : pool.step config action = some next) :
    Relays now later pool next := by
  have idle (silent : next.propagated = pool.propagated)
      (same : next.server.db = pool.server.db) : Relays now later pool next := by
    refine relays_idle unbounded inTime.order silent (by rw [same]) ?_
    rw [same]
    exact TimedMap.Forgets.refl _ _
  cases action with
  | process channel moment =>
      obtain ⟨client, found, draining, acted, -, propagated⟩ :=
        RecordedPool.process_step taken
      cases begun : client.stage with
      | checked rawCmd cmd =>
          exact relays_finish unbounded master inTime begun
            (logged.decoded channel client found rawCmd cmd begun).2 channel
            acted propagated
      | ready =>
          rw [propagation_eq_nil begun (by simp), List.append_nil] at propagated
          refine idle propagated ?_
          rw [acted, begun]
          exact RecordedPool.db_of_ready (Connection.begin_turn _ _ _ draining)
      | announced | transferred =>
          rw [propagation_eq_nil begun (by simp), List.append_nil] at propagated
          refine idle propagated ?_
          rw [acted, begun]
          rfl
  | purge instant samplePerShard =>
      cases taken
      exact relays_idle unbounded inTime.order rfl
        (pool.server.db.maxMemoryBytes_call
          ⟨.purgeExpiredSample samplePerShard, instant, .front⟩)
        ((pool.server.db.contents_purgeExpiredSample instant
          samplePerShard).later inTime.2)
  | propagate rawResp => exact absurd rfl (own rawResp)
  | _ => cases transition_of_step taken <;> exact idle rfl rfl

end ServerPool

end RustiCache
