import RustiCache.LoopRounds
import RustiCache.ServerPoolSteps
import Mathlib.Algebra.Order.BigOperators.Group.List

/-!
# From the listener's start to its end

The accept loop takes a permit for each connection that arrives and gives it to
the task of the connection, which gives it back when it ends.  A connection that
arrives while no permit is left is dropped.  When the loop is told to stop it
signals all connections and ends; a connection acts on the signal the next time
it waits.
-/

namespace RustiCache

/-- A server with its accept loop: the permits that are left, and the connection
tasks that hold one. -/
structure ServerProcess (hasher : String → UInt64) where
  pool : ServerPool hasher
  permits : Nat
  tasks : List ChannelId
  listening : Bool

inductive ProcessAction where
  | arrive (channel : ChannelId)
  | acceptFailed
  | stop
  | act (action : PoolAction)
  | finish (channel : ChannelId)

namespace ServerPool

variable {hasher : String → UInt64}

/-- The connection of a channel has been accepted and has not ended. -/
def Open (pool : ServerPool hasher) (channel : ChannelId) : Prop :=
  HoldsAt (fun client => client.connection.phase ≠ .closed) pool.clients channel

end ServerPool

namespace ServerProcess

variable {hasher : String → UInt64} (config : PoolConfig)

def step (process : ServerProcess hasher) :
    ProcessAction → Option (ServerProcess hasher)
  | .arrive channel =>
      if process.listening then
        if process.permits = 0 then
          some process
        else
          (process.pool.step config (.accept channel)).map fun pool =>
            { process with
              pool := pool
              permits := process.permits - 1
              tasks := channel :: process.tasks }
      else
        none
  | .acceptFailed => if process.listening then some process else none
  | .stop =>
      if process.listening then
        some { process with listening := false }
      else
        none
  -- the listener accepts, and only a command propagates
  | .act (.accept _) => none
  | .act (.propagate _) => none
  | .act (.shutdown channel) =>
      if process.listening then
        none
      else
        (process.pool.step config (.shutdown channel)).map fun pool =>
          { process with pool := pool }
  | .act action =>
      (process.pool.step config action).map fun pool =>
        { process with pool := pool }
  | .finish channel =>
      (process.pool.clients channel).bind fun client =>
        if client.connection.phase = .closed ∧ channel ∈ process.tasks then
          some { process with
            permits := process.permits + 1
            tasks := process.tasks.erase channel }
        else
          none

/-- The accept loop begins. -/
def start (server : ServerState hasher) (maxConnections : Nat) :
    ServerProcess hasher :=
  ⟨ServerPool.start server, maxConnections, [], true⟩

/-- What a step can do, with the conditions under which it can happen. -/
inductive Transition (process : ServerProcess hasher) :
    ProcessAction → ServerProcess hasher → Prop where
  | welcome {channel : ChannelId} {pool : ServerPool hasher}
      (listening : process.listening = true) (left : process.permits ≠ 0)
      (taken : process.pool.step config (.accept channel) = some pool) :
      Transition process (.arrive channel)
        { process with
          pool := pool
          permits := process.permits - 1
          tasks := channel :: process.tasks }
  | ignore {action : ProcessAction} (listening : process.listening = true) :
      Transition process action process
  | stop (listening : process.listening = true) :
      Transition process .stop { process with listening := false }
  | act {action : PoolAction} {pool : ServerPool hasher}
      (others : ∀ channel, action ≠ .accept channel)
      (unheard : ∀ rawResp, action ≠ .propagate rawResp)
      (taken : process.pool.step config action = some pool) :
      Transition process (.act action) { process with pool := pool }
  | finish {channel : ChannelId} {client : Client}
      (found : process.pool.clients channel = some client)
      (closed : client.connection.phase = .closed)
      (holds : channel ∈ process.tasks) :
      Transition process (.finish channel)
        { process with
          permits := process.permits + 1
          tasks := process.tasks.erase channel }

variable {config}

theorem transition_of_step {process next : ServerProcess hasher}
    {action : ProcessAction} (taken : process.step config action = some next) :
    Transition config process action next := by
  have acts : ∀ {action : PoolAction}, (∀ channel, action ≠ .accept channel) →
      (∀ rawResp, action ≠ .propagate rawResp) →
      ((process.pool.step config action).map fun pool =>
        { process with pool := pool }) = some next →
      Transition config process (.act action) next := by
    intro action others unheard acted
    obtain ⟨pool, stepped, rfl⟩ := Option.map_eq_some_iff.mp acted
    exact .act others unheard stepped
  cases action with
  | arrive channel =>
      simp only [step] at taken
      split at taken
      next listening =>
        split at taken
        next =>
          cases taken
          exact .ignore listening
        next left =>
          obtain ⟨pool, stepped, rfl⟩ := Option.map_eq_some_iff.mp taken
          exact .welcome listening left stepped
      next => cases taken
  | acceptFailed =>
      simp only [step] at taken
      split at taken
      next listening =>
        cases taken
        exact .ignore listening
      next => cases taken
  | stop =>
      simp only [step] at taken
      split at taken
      next listening =>
        cases taken
        exact .stop listening
      next => cases taken
  | act action =>
      cases action with
      | accept channel => cases taken
      | propagate rawResp => cases taken
      | shutdown channel =>
          simp only [step] at taken
          split at taken
          next => cases taken
          next => exact acts (by simp) (by simp) taken
      | disconnect channel => exact acts (by simp) (by simp) taken
      | replicate channel => exact acts (by simp) (by simp) taken
      | read channel chunk => exact acts (by simp) (by simp) taken
      | process channel moment => exact acts (by simp) (by simp) taken
      | purge now samplePerShard => exact acts (by simp) (by simp) taken
  | finish channel =>
      obtain ⟨client, found, acted⟩ := Option.bind_eq_some_iff.mp taken
      split at acted
      next ended =>
        cases acted
        exact .finish found ended.1 ended.2
      next => cases acted

end ServerProcess

namespace ServerPool

variable {hasher : String → UInt64} {config : PoolConfig}

/-- A step other than an accept changes at most one connection, and that one was
open. -/
theorem clients_step {pool next : ServerPool hasher} {action : PoolAction}
    (others : ∀ channel, action ≠ .accept channel)
    (taken : pool.step config action = some next) :
    next.clients = pool.clients ∨
      ∃ channel client changed, pool.clients channel = some client ∧
        client.connection.phase ≠ .closed ∧
        next.clients = Function.update pool.clients channel (some changed) := by
  cases transition_of_step taken with
  | accept fresh => exact absurd rfl (others _)
  | hangUp own found stillOpen =>
      exact Or.inr ⟨_, _, _, found, stillOpen, rfl⟩
  | fill found waiting =>
      exact Or.inr ⟨_, _, _, found, by simp [waiting], rfl⟩
  | forward found waiting =>
      exact Or.inr ⟨_, _, _, found, by simp [waiting], rfl⟩
  | turn found draining =>
      exact Or.inr ⟨_, _, _, found, by simp [draining], rfl⟩
  | propagate => exact Or.inl rfl
  | purge => exact Or.inl rfl

/-- An open connection was open before the step, unless it has been accepted. -/
theorem openBefore_of_step {pool next : ServerPool hasher} {action : PoolAction}
    (others : ∀ channel, action ≠ .accept channel)
    (taken : pool.step config action = some next) {channel : ChannelId}
    (opened : next.Open channel) : pool.Open channel := by
  obtain ⟨client, found, stillOpen⟩ := opened
  rcases clients_step others taken with
    same | ⟨acting, before, changed, acted, wasOpen, updated⟩
  · rw [same] at found
    exact ⟨client, found, stillOpen⟩
  · rw [updated] at found
    rcases of_update_eq_some found with ⟨rfl, -⟩ | ⟨-, unchanged⟩
    · exact ⟨before, acted, wasOpen⟩
    · exact ⟨client, unchanged, stillOpen⟩

theorem clients_accept {pool next : ServerPool hasher} {channel : ChannelId}
    (taken : pool.step config (.accept channel) = some next) :
    pool.clients channel = none ∧ ∃ client,
      next.clients = Function.update pool.clients channel (some client) := by
  simp only [step] at taken
  split at taken
  next => cases taken
  next fresh =>
    cases taken
    exact ⟨fresh, _, rfl⟩

theorem isSome_of_step {pool next : ServerPool hasher} {action : PoolAction}
    (others : ∀ channel, action ≠ .accept channel)
    (taken : pool.step config action = some next) {channel : ChannelId}
    (accepted : (pool.clients channel).isSome) :
    (next.clients channel).isSome := by
  rcases clients_step others taken with
    same | ⟨acting, before, changed, -, -, updated⟩
  · rwa [same]
  · rw [updated]
    by_cases own : channel = acting
    · rw [own, Function.update_self]
      rfl
    · rwa [Function.update_of_ne own]

end ServerPool

namespace ServerProcess

variable {hasher : String → UInt64} {config : PoolConfig}

/-- Every open connection has a task, and every task a permit. -/
structure Admitted (maxConnections : Nat) (process : ServerProcess hasher) :
    Prop where
  permits : process.permits + process.tasks.length = maxConnections
  distinct : process.tasks.Nodup
  accepted : ∀ channel ∈ process.tasks,
    (process.pool.clients channel).isSome
  opened : ∀ {channel}, process.pool.Open channel → channel ∈ process.tasks

theorem Admitted.step {maxConnections : Nat}
    {process next : ServerProcess hasher} {action : ProcessAction}
    (admitted : process.Admitted maxConnections)
    (taken : process.step config action = some next) :
    next.Admitted maxConnections := by
  cases transition_of_step taken with
  | ignore => exact admitted
  | stop => exact ⟨admitted.permits, admitted.distinct, admitted.accepted,
      admitted.opened⟩
  | act others _ stepped =>
      exact
        { permits := admitted.permits
          distinct := admitted.distinct
          accepted := fun channel holds =>
            ServerPool.isSome_of_step others stepped
              (admitted.accepted channel holds)
          opened := fun isOpen =>
            admitted.opened (ServerPool.openBefore_of_step others stepped isOpen) }
  | @finish channel client found closed holds =>
      refine ⟨?_, admitted.distinct.erase channel, ?_, ?_⟩
      · have length := List.length_erase_add_one holds
        have all := admitted.permits
        dsimp only
        omega
      · intro other remains
        exact admitted.accepted other (List.mem_of_mem_erase remains)
      · intro other isOpen
        have another : other ≠ channel := by
          rintro rfl
          obtain ⟨same, isFound, stillOpen⟩ := isOpen
          rw [found] at isFound
          cases isFound
          exact stillOpen closed
        exact (List.mem_erase_of_ne another).mpr (admitted.opened isOpen)
  | @welcome channel pool listening left accepts =>
      obtain ⟨fresh, client, updated⟩ := ServerPool.clients_accept accepts
      have unknown : channel ∉ process.tasks := by
        intro holds
        have known := admitted.accepted channel holds
        rw [fresh] at known
        cases known
      refine ⟨?_, List.nodup_cons.mpr ⟨unknown, admitted.distinct⟩, ?_, ?_⟩
      · have all := admitted.permits
        dsimp only
        rw [List.length_cons]
        omega
      · intro other holds
        dsimp only
        rw [updated]
        rcases List.mem_cons.mp holds with rfl | before
        · rw [Function.update_self]
          rfl
        · have another : other ≠ channel := fun same => unknown (same ▸ before)
          rw [Function.update_of_ne another]
          exact admitted.accepted other before
      · rintro other ⟨found, isFound, stillOpen⟩
        dsimp only at isFound
        rw [updated] at isFound
        rcases ServerPool.of_update_eq_some isFound with ⟨rfl, -⟩ | ⟨-, before⟩
        · exact List.mem_cons_self
        · exact List.mem_cons_of_mem _
            (admitted.opened ⟨found, before, stillOpen⟩)

theorem start_admitted (server : ServerState hasher) (maxConnections : Nat) :
    (start server maxConnections).Admitted maxConnections where
  permits := rfl
  distinct := List.nodup_nil
  accepted := fun channel holds => by cases holds
  opened := fun isOpen => by
    obtain ⟨client, found, -⟩ := isOpen
    cases found

/-- The pool of a process does what the process has its connections do. -/
theorem pool_reaches {server : ServerState hasher} {maxConnections : Nat}
    {actions : List ProcessAction} {process : ServerProcess hasher}
    (reaches : Reaches (step config) (fun _ _ => True)
      (start server maxConnections) actions process) :
    ∃ poolActions, Reaches (ServerPool.step config) (fun _ _ => True)
      (ServerPool.start server) poolActions process.pool := by
  induction reaches with
  | refl => exact ⟨[], .refl _⟩
  | snoc _ _ taken ih =>
      obtain ⟨poolActions, before⟩ := ih
      cases transition_of_step taken with
      | welcome _ _ accepts => exact ⟨_, before.snoc trivial accepts⟩
      | act _ _ stepped => exact ⟨_, before.snoc trivial stepped⟩
      | ignore => exact ⟨poolActions, before⟩
      | stop => exact ⟨poolActions, before⟩
      | finish => exact ⟨poolActions, before⟩

/-- A listening server opens the connection that arrives if it has a permit
left. -/
theorem arrive_open_iff (config : PoolConfig) {process : ServerProcess hasher} {channel : ChannelId}
    (listening : process.listening = true)
    (fresh : process.pool.clients channel = none) :
    ∃ next, process.step config (.arrive channel) = some next ∧
      (next.pool.Open channel ↔ 0 < process.permits) := by
  simp only [step, listening, if_true]
  split
  next none =>
    refine ⟨process, rfl, ?_⟩
    rw [none]
    refine iff_of_false ?_ (Nat.lt_irrefl 0)
    rintro ⟨client, found, -⟩
    rw [fresh] at found
    cases found
  next left =>
    simp only [ServerPool.step, fresh, Option.map_some]
    refine ⟨_, rfl, iff_of_true ⟨_, Function.update_self .., ?_⟩
      (Nat.pos_of_ne_zero left)⟩
    simp [Connection.new]

/-- In every run there are at most as many open connections as the server is
configured for, and no permit is lost: while it listens, a server turns a
connection away exactly if so many connection tasks have not ended. -/
theorem open_connections_le {server : ServerState hasher} {maxConnections : Nat}
    {actions : List ProcessAction} {process : ServerProcess hasher}
    (reaches : Reaches (step config) (fun _ _ => True)
      (start server maxConnections) actions process) :
    (∀ channels : List ChannelId, channels.Nodup →
        (∀ channel ∈ channels, process.pool.Open channel) →
        channels.length ≤ maxConnections) ∧
      (process.listening = true → ∀ channel,
        process.pool.clients channel = none →
        ∃ next, process.step config (.arrive channel) = some next ∧
          (next.pool.Open channel ↔
            process.tasks.length < maxConnections)) := by
  have admitted : process.Admitted maxConnections :=
    reaches.invariant (fun kept _ taken => Admitted.step kept taken)
      (start_admitted server maxConnections)
  have permits := admitted.permits
  constructor
  · intro channels distinct allOpen
    have within : channels ⊆ process.tasks :=
      fun channel isOpen => admitted.opened (allOpen channel isOpen)
    have count := (List.subperm_of_subset distinct within).length_le
    omega
  · intro listening channel fresh
    obtain ⟨next, taken, opens⟩ :=
      arrive_open_iff config listening fresh
    refine ⟨next, taken, opens.trans ?_⟩
    omega

/-- Of two connections that arrive the second finds no permit. -/
theorem open_connections_le_crowded :
    let server : ServerState fun _ => 0 :=
      ⟨Db.withConfig _ 1 0, .newMaster none, fun _ => none, none⟩
    ∃ process, Reaches (step ⟨none, 1024⟩) (fun _ _ => True) (start server 1)
        [.arrive 0, .arrive 1] process ∧
      (∀ channels : List ChannelId, channels.Nodup →
        (∀ channel ∈ channels, process.pool.Open channel) →
        channels.length ≤ 1) ∧
      ∃ next, process.step ⟨none, 1024⟩ (.arrive 1) = some next ∧
        ¬ next.pool.Open 1 := by
  intro server
  have ran : (runActions (step ⟨none, 1024⟩) (start server 1)
      [.arrive 0, .arrive 1]).map (fun process =>
        (process.listening, process.tasks,
          (process.pool.clients 1).isNone)) = some (true, [0], true) := by
    decide +kernel
  obtain ⟨process, reached, checked⟩ := Option.map_eq_some_iff.mp ran
  have reaches := reaches_of_runActions reached
  simp only [Prod.mk.injEq, Option.isNone_iff_eq_none] at checked
  obtain ⟨listening, full, fresh⟩ := checked
  obtain ⟨within, turnsAway⟩ := open_connections_le reaches
  obtain ⟨next, taken, admits⟩ := turnsAway listening 1 fresh
  refine ⟨process, reaches, within, next, taken, fun isOpen => ?_⟩
  have room := admits.mp isOpen
  rw [full] at room
  exact absurd room (by decide)

end ServerProcess

/-- The steps still to be taken for a frame that has been cut off. -/
def DispatchStage.stepsLeft : DispatchStage → Nat
  | .ready => 0
  | .checked _ _ => 1
  | .announced => 2
  | .transferred => 1

namespace Connection

variable {hasher : String → UInt64} {config : ConnectionConfig}

/-- The steps that a connection's task can still take if no bytes come in any
more.  A frame takes at most three. -/
def stepsLeft (connection : Connection) (stage : DispatchStage) : Nat :=
  match connection.phase with
  | .closed => 1
  | .waiting => 2
  | .draining => 3 + 3 * connection.buffer.length + stage.stepsLeft

end Connection

namespace ServerPool

variable {hasher : String → UInt64} {config : PoolConfig}

/-- The steps left to the task of a channel. -/
def stepsLeft (pool : ServerPool hasher) (channel : ChannelId) : Nat :=
  ((pool.clients channel).map fun client =>
    client.connection.stepsLeft client.stage).getD 0

end ServerPool

namespace ServerProcess

variable {hasher : String → UInt64} {config : PoolConfig}

/-- The steps left to all connection tasks. -/
def stepsLeft (process : ServerProcess hasher) : Nat :=
  (process.tasks.map process.pool.stepsLeft).sum

/-- The accept loop has ended. -/
structure Stopping (maxConnections : Nat) (process : ServerProcess hasher) : Prop
    extends process.Admitted maxConnections where
  stopped : process.listening = false

/-- It does not begin again. -/
theorem Stopping.step {maxConnections : Nat}
    {process next : ServerProcess hasher} {action : ProcessAction}
    (stopping : process.Stopping maxConnections)
    (taken : process.step config action = some next) :
    next.Stopping maxConnections := by
  refine ⟨stopping.toAdmitted.step taken, ?_⟩
  cases transition_of_step taken with
  | welcome => exact stopping.stopped
  | ignore => exact stopping.stopped
  | stop => rfl
  | act => exact stopping.stopped
  | finish => exact stopping.stopped

end ServerProcess

end RustiCache
