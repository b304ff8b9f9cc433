import RustiCache.DeletionCounts
import RustiCache.ReplicaServer

/-!
# The commands of all connections act on one timed map

Each command that a connection has executed is put on record, with the clock
readings of its execution and the bytes written in reply.  Read from the
beginning, the record is one of a single timed map: whichever way the steps of
the connections and of the purge interleave, every reply is one that the map
gives where the record has come to.
-/

namespace RustiCache

namespace TimedMap

variable {κ ν τ : Type}

/-- How many of the listed keys can be read, each at a time of its own. -/
def countLive [LinearOrder τ] (map : TimedMap κ ν τ) (clock : Nat → τ)
    (reading : Nat) (names : List κ) : Nat :=
  (names.zipIdx reading).countP fun item => (map.get (clock item.2) item.1).isSome

end TimedMap

/-- The clock readings of an action fall between two instants. -/
structure Timely (now later : Instant) (clock : Nat → Instant) : Prop where
  monotone : Monotone clock
  begins : now ≤ clock 0
  ends : ∀ reading, clock reading ≤ later

/-- The clock readings of an action of a server fall between two instants. -/
def PoolAction.InTime (now later : Instant) : PoolAction → Prop
  | process _ moment => Timely now later moment.clock
  | purge instant _ => now ≤ instant ∧ instant ≤ later
  | _ => now ≤ later

theorem Timely.order {now later : Instant} {clock : Nat → Instant}
    (timely : Timely now later clock) : now ≤ later :=
  timely.begins.trans (timely.ends 0)

theorem PoolAction.InTime.order {now later : Instant} {action : PoolAction}
    (inTime : action.InTime now later) : now ≤ later := by
  cases action with
  | process channel moment => exact Timely.order inTime
  | purge instant samplePerShard => exact inTime.1.trans inTime.2
  | _ => exact inTime

namespace Command

/-- The command reads or writes the store. -/
def isData : Command → Bool
  | get _ | set _ _ _ | del _ | «exists» _ | keys _ => true
  | _ => false

/-- What a timed map may reply to a command, and what it becomes.  A key that has
expired may or may not be counted by `DEL`, and the keys are listed in any
order. -/
inductive Served (clock : Nat → Instant) (map : TimedMap String Bytes Instant) :
    Command → Bytes → TimedMap String Bytes Instant → Prop where
  | get (key : String) :
      Served clock map (.get key)
        (Value.bulkString (map.get (clock 0) key)).serialize map
  | set (key : String) (value : Bytes) (pxMs : Option UInt64) :
      Served clock map (.set key value pxMs) Value.ok.serialize
        (map.write key value
          (pxMs.map fun ms => clock 0 + ms.toNat * nanosPerMilli))
  | del (names : List String) (removed : Finset String)
      (bound : ∀ key ∈ removed, key ∈ names ∧ (map key).isSome)
      (live : ∀ key ∈ names, (map.get (clock 0) key).isSome → key ∈ removed) :
      Served clock map (.del names)
        (Value.integer (Int64.ofNat removed.card)).serialize (map.without names)
  | exists (names : List String) :
      Served clock map (.exists names)
        (Value.integer (Int64.ofNat (map.countLive clock 0 names))).serialize map
  | keys (pattern : String) (names : List String) (distinct : names.Nodup)
      (exactly : ∀ key, key ∈ names ↔ (map.get (clock 0) key).isSome) :
      Served clock map (.keys pattern)
        (Value.array (some (names.map Value.string))).serialize map
  | other {cmd : Command} (elsewhere : cmd.isData = false) (written : Bytes) :
      Served clock map cmd written map

variable {hasher : String → UInt64}

/-- The look-ups of `EXISTS` are those of the map, each at its own reading. -/
theorem existsKeys_served {clock : Nat → Instant} (monotone : Monotone clock)
    {later : Instant} (ends : ∀ reading, clock reading ≤ later)
    {map : TimedMap String Bytes Instant} (names : List String) {now : Instant}
    {db : Db hasher} (forgets : TimedMap.Forgets now map db.contents)
    {reading : Nat} (begins : now ≤ clock reading) :
    (existsKeys clock reading names db).1 = map.countLive clock reading names ∧
      TimedMap.Forgets later map
        (existsKeys clock reading names db).2.contents ∧
      (existsKeys clock reading names db).2.maxMemoryBytes =
        db.maxMemoryBytes := by
  induction names generalizing now db reading with
  | nil => exact ⟨rfl, forgets.later (begins.trans (ends reading)), rfl⟩
  | cons key names ih =>
      have next : TimedMap.Forgets (clock reading) map
          (db.exists (clock reading) key).2.contents :=
        forgets.trans (db.contents_get (clock reading) key) begins
      obtain ⟨count, kept, bound⟩ :=
        ih next (monotone (Nat.le_succ reading))
      have answer : (db.exists (clock reading) key).1 =
          (map.get (clock reading) key).isSome := by
        rw [Db.exists]
        dsimp only
        rw [db.get_answer, forgets.get begins]
      refine ⟨?_, kept, bound.trans (db.maxMemoryBytes_get _ key)⟩
      simp only [existsKeys, TimedMap.countLive, List.zipIdx_cons,
        List.countP_cons]
      rw [count, answer, TimedMap.countLive]
      cases (map.get (clock reading) key).isSome <;> rfl

/-- `DEL` counts keys that are bound, and among them all that have not
expired. -/
theorem del_served {now : Instant} {clock : Nat → Instant}
    (begins : now ≤ clock 0) {map : TimedMap String Bytes Instant}
    {db : Db hasher} (forgets : TimedMap.Forgets now map db.contents)
    (names : List String) :
    Served clock map (.del names)
      (Value.integer (Int64.ofNat (delKeys names db).1)).serialize
      (map.without names) := by
  rw [delKeys_count]
  refine .del names (storedKeys db names) ?_ ?_
  · intro key member
    rw [storedKeys, Finset.mem_filter, List.mem_toFinset] at member
    refine ⟨member.1, ?_⟩
    rcases forgets key with same | ⟨missing, -⟩
    · rw [← same]
      exact member.2
    · rw [missing] at member
      cases member.2
  · intro key listed live
    rw [storedKeys, Finset.mem_filter, List.mem_toFinset]
    refine ⟨listed, ?_⟩
    rw [← forgets.get begins] at live
    cases stored : db.contents key with
    | none =>
        rw [TimedMap.get_of_none stored] at live
        cases live
    | some binding => rfl

/-- The store after a command, next to a map that has served it. -/
structure Follows (later : Instant) (map : TimedMap String Bytes Instant)
    (db : Db hasher) : Prop where
  forgets : TimedMap.Forgets later map db.contents
  unbounded : db.maxMemoryBytes = 0

theorem Follows.later {now later : Instant}
    {map : TimedMap String Bytes Instant} {db : Db hasher}
    (follows : Follows now map db) (order : now ≤ later) :
    Follows later map db :=
  ⟨follows.forgets.later order, follows.unbounded⟩

/-- The bytes that a connection writes for a reply. -/
def written (reply : Option Value) : Bytes :=
  (reply.map Value.serialize).getD []

/-- A command is executed as the map serves it. -/
theorem perform_served {now later : Instant} {moment : Moment}
    (timely : Timely now later moment.clock)
    {map : TimedMap String Bytes Instant} {server : ServerState hasher}
    (follows : Follows now map server.db) (rawCmd : Option Bytes)
    (isAuthenticated : Bool) (cmd : Command) :
    let executed := cmd.perform moment server rawCmd isAuthenticated
    ∃ next, Served moment.clock map cmd (written executed.reply) next ∧
      Follows later next executed.server.db := by
  have order := timely.order
  have elsewhere : ∀ {db : Db hasher} {reply : Option Value}, db = server.db →
      cmd.isData = false → ∃ next, Served moment.clock map cmd (written reply)
        next ∧ Follows later next db := by
    intro db reply same silent
    rw [same]
    exact ⟨map, .other silent _, follows.later order⟩
  cases cmd with
  | get key =>
      refine ⟨map, ?_, ?_, ?_⟩
      · simp only [perform, written, Option.map_some, Option.getD_some]
        rw [server.db.get_answer, follows.forgets.get timely.begins]
        exact .get key
      · have kept := follows.forgets.trans
          (server.db.contents_get (moment.clock 0) key) timely.begins
        exact kept.later (timely.ends 0)
      · exact (server.db.maxMemoryBytes_get _ key).trans follows.unbounded
  | set key value pxMs =>
      refine ⟨_, .set key value pxMs, ?_, ?_⟩
      · simp only [perform, (propagate_db _ rawCmd).1]
        obtain ⟨kept, -, same, contents⟩ := server.db.contents_set
          moment.arrangement (moment.clock 1) key value
          (pxMs.map fun ms => moment.clock 0 + ms.toNat * nanosPerMilli)
        rw [contents, same follows.unbounded]
        exact (follows.forgets.update key _).later order
      · simp only [perform, (propagate_db _ rawCmd).1]
        exact (server.db.maxMemoryBytes_call
          ⟨.set key value _, moment.clock 1, moment.arrangement⟩).trans
          follows.unbounded
  | del names =>
      have stored : (perform moment server rawCmd isAuthenticated
          (.del names)).server.db = (delKeys names server.db).2 := by
        simp only [perform]
        split
        next => rw [(propagate_db _ rawCmd).1]
        next => rfl
      have contents : (delKeys names server.db).2.contents =
          server.db.contents.without names := by
        ext1 key
        rw [contents_delKeys, KeyWrite.applyAll_removals, TimedMap.without]
      refine ⟨_, del_served timely.begins follows.forgets names, ?_, ?_⟩
      · rw [stored, contents]
        exact (follows.forgets.without names).later order
      · rw [stored, maxMemoryBytes_delKeys]
        exact follows.unbounded
  | «exists» names =>
      obtain ⟨count, kept, bound⟩ := existsKeys_served timely.monotone
        timely.ends names follows.forgets timely.begins
      refine ⟨map, ?_, kept, bound.trans follows.unbounded⟩
      simp only [perform, written, Option.map_some, Option.getD_some]
      rw [count]
      exact .exists names
  | keys pattern =>
      refine ⟨map, .keys pattern (server.db.keys (moment.clock 0))
        (server.db.nodup_keys _) ?_, follows.later order⟩
      intro key
      rw [server.db.mem_keys_iff, follows.forgets.get timely.begins]
  | ping message => cases message <;> exact elsewhere rfl rfl
  | cluster subcommand =>
      refine elsewhere ?_ rfl
      simp only [perform]
      cases server.cluster <;> rfl
  | _ => exact elsewhere rfl rfl

end Command

/-- A command that a connection has had executed: the clock readings of the
execution, and the bytes written in reply. -/
structure Exchange where
  channel : ChannelId
  clock : Nat → Instant
  cmd : Command
  written : Bytes

/-- A record of commands takes a timed map from one state to another. -/
inductive Exchange.Explains (first : TimedMap String Bytes Instant) :
    List Exchange → TimedMap String Bytes Instant → Prop where
  | nil : Explains first [] first
  | snoc {exchanges : List Exchange} {map next : TimedMap String Bytes Instant}
      {exchange : Exchange} (before : Explains first exchanges map)
      (served : exchange.cmd.Served exchange.clock map exchange.written next) :
      Explains first (exchanges ++ [exchange]) next

/-- A server with the time of its last action and the record of its commands. -/
structure RecordedPool (hasher : String → UInt64) where
  pool : ServerPool hasher
  now : Instant
  exchanges : List Exchange

namespace RecordedPool

variable {hasher : String → UInt64} (config : PoolConfig)

/-- What the connection of a channel has written. -/
def sent (pool : ServerPool hasher) (channel : ChannelId) : Bytes :=
  ((pool.clients channel).map fun client => client.connection.sent).getD []

theorem sent_of_found {pool : ServerPool hasher} {channel : ChannelId}
    {client : Client} (found : pool.clients channel = some client) :
    sent pool channel = client.connection.sent := by
  rw [sent, found]
  rfl

/-- The entry for an action that leads from one state to another. -/
def exchange (pool next : ServerPool hasher) : PoolAction → Option Exchange
  | .process channel moment =>
      ((pool.clients channel).bind (Client.upcoming config.requirepass)).map
        fun cmd => ⟨channel, moment.clock, cmd,
          (sent next channel).drop (sent pool channel).length⟩
  | _ => none

/-- An action that ends at a time. -/
def step (state : RecordedPool hasher) (action : PoolAction × Instant) :
    Option (RecordedPool hasher) :=
  (state.pool.step config action.1).map fun next =>
    ⟨next, action.2,
      state.exchanges ++ (exchange config state.pool next action.1).toList⟩

/-- The clock does not go back, within an action and from one to the next. -/
def InTime (state : RecordedPool hasher) (action : PoolAction × Instant) : Prop :=
  action.1.InTime state.now action.2

def start (server : ServerState hasher) : RecordedPool hasher :=
  ⟨ServerPool.start server, 0, []⟩

variable {config}

/-- The record is one of a timed map, and the store holds what the map does. -/
def Explained (state : RecordedPool hasher) : Prop :=
  ∃ map, Exchange.Explains TimedMap.empty state.exchanges map ∧
    Command.Follows state.now map state.pool.server.db

/-- A step that executes no command and leaves the store, up to what has
expired. -/
theorem Explained.unrecorded {state : RecordedPool hasher}
    (explained : state.Explained) {pool : ServerPool hasher} {later : Instant}
    (order : state.now ≤ later)
    (forgets : TimedMap.Forgets later state.pool.server.db.contents
      pool.server.db.contents)
    (bound : pool.server.db.maxMemoryBytes =
      state.pool.server.db.maxMemoryBytes) :
    Explained ⟨pool, later, state.exchanges ++ []⟩ := by
  obtain ⟨map, explains, follows⟩ := explained
  refine ⟨map, ?_, follows.forgets.trans forgets order,
    bound.trans follows.unbounded⟩
  rw [List.append_nil]
  exact explains

/-- Cutting a frame off the buffer leaves the store as it is. -/
theorem db_of_ready {config : ConnectionConfig}
    {server after : ServerState hasher} {connection next : Connection}
    {stage : DispatchStage}
    (turned : connection.Turn config server .ready after next stage) :
    after.db = server.db := by
  cases turned <;> rfl

/-- A step of a draining connection executes the upcoming command, if there is
one, and else leaves the store as it is. -/
theorem turn_served (config : PoolConfig) {now later : Instant}
    {moment : Moment} (timely : Timely now later moment.clock)
    {map : TimedMap String Bytes Instant} {server : ServerState hasher}
    (follows : Command.Follows now map server.db) {client : Client}
    (draining : client.connection.phase = .draining) (channel : ChannelId) :
    let outcome := client.connection.turn (config.ofChannel channel) moment
      server client.stage
    match client.upcoming config.requirepass with
    | none => outcome.1.server.db = server.db
    | some cmd => ∃ next,
        cmd.Served moment.clock map (outcome.1.connection.sent.drop
          client.connection.sent.length) next ∧
        Command.Follows later next outcome.1.server.db := by
  unfold Client.upcoming
  cases client.stage with
  | ready =>
      exact db_of_ready (Connection.begin_turn (config.ofChannel channel) moment
        server draining)
  | checked rawCmd cmd =>
      dsimp only [Connection.turn, Connection.finish, PoolConfig.ofChannel]
      cases barred : config.requirepass.isSome &&
          !client.connection.isAuthenticated with
      | true =>
          rw [(Command.execute_of_barred moment server rawCmd barred cmd).1]
          rfl
      | false =>
          rw [Command.execute_of_allowed moment server _ barred,
            List.drop_left]
          exact Command.perform_served timely follows (some rawCmd) _ cmd
  | announced => rfl
  | transferred => rfl

/-- A step of a draining connection, seen from the pool. -/
theorem process_step {pool next : ServerPool hasher} {channel : ChannelId}
    {moment : Moment}
    (taken : pool.step config (.process channel moment) = some next) :
    ∃ client, pool.clients channel = some client ∧
      client.connection.phase = .draining ∧
      let outcome := client.connection.turn (config.ofChannel channel) moment
        pool.server client.stage
      next.server = outcome.1.server ∧
        sent next channel = outcome.1.connection.sent ∧
        next.propagated = pool.propagated ++
          ServerPool.propagation config pool.server client := by
  obtain ⟨client, found, turned⟩ := Option.bind_eq_some_iff.mp taken
  obtain ⟨draining, turned⟩ := Option.ite_none_right_eq_some.mp turned
  refine ⟨client, found, draining, ?_⟩
  generalize client.connection.turn (config.ofChannel channel) moment
    pool.server client.stage = outcome at turned ⊢
  cases turned
  refine ⟨rfl, ?_, rfl⟩
  rw [sent_of_found (Function.update_self ..)]

theorem Explained.step {state next : RecordedPool hasher}
    {action : PoolAction × Instant} (explained : state.Explained)
    (inTime : state.InTime action)
    (taken : state.step config action = some next) : next.Explained := by
  obtain ⟨act, later⟩ := action
  obtain ⟨pool, acted, rfl⟩ := Option.map_eq_some_iff.mp taken
  have order : state.now ≤ later := inTime.order
  have idle : pool.server.db = state.pool.server.db →
      Explained ⟨pool, later, state.exchanges ++ []⟩ := by
    intro same
    refine explained.unrecorded order ?_ (congrArg Db.maxMemoryBytes same)
    rw [same]
    exact TimedMap.Forgets.refl _ _
  cases act with
  | process channel moment =>
      obtain ⟨client, found, draining, server, after, -⟩ := process_step acted
      obtain ⟨map, explains, follows⟩ := explained
      have served := turn_served config inTime follows draining channel
      simp only [exchange, found, Option.bind_some]
      cases upcoming : client.upcoming config.requirepass with
      | none =>
          rw [upcoming] at served
          exact idle ((congrArg ServerState.db server).trans served)
      | some cmd =>
          rw [upcoming] at served
          obtain ⟨next, isServed, nextFollows⟩ := served
          rw [← server] at nextFollows
          refine ⟨next, explains.snoc ?_, nextFollows⟩
          dsimp only
          rw [sent_of_found found, after]
          exact isServed
  | purge now samplePerShard =>
      cases acted
      exact explained.unrecorded order
        ((state.pool.server.db.contents_purgeExpiredSample now
          samplePerShard).later inTime.2)
        (state.pool.server.db.maxMemoryBytes_call
          ⟨.purgeExpiredSample samplePerShard, now, .front⟩)
  | _ =>
      refine idle ?_
      cases ServerPool.transition_of_step acted <;> rfl

/-- The actions of a schedule are in time one after another. -/
def Ordered (now : Instant) : List (PoolAction × Instant) → Prop
  | [] => True
  | (action, later) :: actions => action.InTime now later ∧ Ordered later actions

end RecordedPool

end RustiCache
