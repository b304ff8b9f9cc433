import RustiCache.WriterRelays

/-!
# Agreement between a master and its replication stream

A key that no command in progress has written has the same binding on the master
and on a replica that applies the frames it was sent, as long as the commands in
progress stay off each other's keys.  Two clients that set the same key at the
same time can leave the two sides with different values for good.
-/

namespace RustiCache

namespace WriterSystem

variable {hasher replicaHasher : String → UInt64} {tx : ChannelId}
  {system next : WriterSystem hasher}

/-- In every run whose clients operate undisturbed, a key that no command in
progress has written has the same binding on the master and on a replica that
applies the frames sent so far, in order; once all clients are done this is
every key. -/
theorem orders_agree (moments : Nat → Moment) {server : ServerState hasher}
    {replica : ServerState replicaHasher}
    (master : server.replState.isReplica = false)
    (registered : server.replState.downstreamSenders.count tx = 1)
    (nothingSent : server.channels tx = some [])
    (unbounded : server.db.maxMemoryBytes = 0)
    (replicaUnbounded : replica.db.maxMemoryBytes = 0)
    (same : server.db.contents = replica.db.contents)
    {actions : List WriterAction} {final : WriterSystem hasher}
    (reaches : Reaches step Undisturbed (start server) actions final) :
    (∀ key, (∀ client, key ∉ final.touched client) →
      (final.replayed tx moments replica).db.contents key =
        final.server.db.contents key) ∧
      ((∀ client, final.writers client = none) →
        (final.replayed tx moments replica).db.contents =
          final.server.db.contents) := by
  have empty : (start server).sent tx = [] := by
    rw [sent, start, nothingSent]
    rfl
  have begins : (start server).Relaying tx moments replica := by
    refine ⟨master, registered, ?_, unbounded, ?_, ?_⟩
    · rw [empty]
      exact nothingSent
    · rw [replayed, empty]
      exact replicaUnbounded
    · intro client writer busy
      cases busy
  have relayed := (reaches.strengthen
    (fun relaying _ taken => (step_simulates relaying taken).1)
    begins).simulate (fun state => state.relay tx moments replica) shown
    (fun meets taken =>
      ⟨undisturbed_shown meets.2, (step_simulates meets.1 taken).2⟩)
  have agrees : ∀ key, (∀ client, key ∉ final.touched client) →
      (final.replayed tx moments replica).db.contents key =
        final.server.db.contents key := by
    intro key untouched
    refine (Relay.agrees_of_reaches (fun _ => rfl) ?_ relayed untouched).symm
    change server.db.contents =
      (Command.replayFrames moments replica ((start server).sent tx)).db.contents
    rw [empty]
    exact same
  refine ⟨agrees, fun done => funext fun key => agrees key ?_⟩
  intro client
  rw [touched, done client]
  exact List.not_mem_nil

theorem writers_of_step {client : Nat} {action : WriterAction}
    (other : action.client ≠ client) (taken : system.step action = some next) :
    next.writers client = system.writers client := by
  cases action with
  | issue actor rawCmd =>
      simp only [step] at taken
      split at taken <;> cases taken
      exact Function.update_of_ne (Ne.symm other) ..
  | operate actor moment =>
      simp only [step] at taken
      split at taken <;> cases taken
      · exact Function.update_of_ne (Ne.symm other) ..
      · exact Function.update_of_ne (Ne.symm other) ..
  | propagate actor =>
      simp only [step] at taken
      split at taken <;> cases taken
      · exact Function.update_of_ne (Ne.symm other) ..
      · exact Function.update_of_ne (Ne.symm other) ..

theorem writers_of_run {client : Nat} {actions : List WriterAction}
    {server : ServerState hasher} {final : WriterSystem hasher}
    (ran : runActions step (start server) actions = some final)
    (others : ∀ action ∈ actions, action.client ≠ client) :
    final.writers client = none := by
  have reaches : Reaches step (fun _ action => action.client ≠ client)
      (start server) actions final :=
    reaches_of_always (fun action member _ => others action member) ran
  exact reaches.invariant
    (fun idle other taken => (writers_of_step other taken).trans idle) rfl

/-- The raw command of a client that sets a key. -/
def rawSet (value : String) : Bytes :=
  (Value.wordsFrame ["SET", "k", value]).1

def rawDel : Bytes :=
  (Value.wordsFrame ["DEL", "k", "j"]).1

def someMoment : Moment :=
  ⟨fun _ => 0, .front⟩

/-- A master with one registered replica. -/
def sampleMaster : ServerState (fun _ => 0) where
  db := .withConfig _ 1 0
  replState := (ReplicationState.newMaster none).registerDownstream 7
  channels := fun _ => some []
  cluster := none

def sampleReplica : ServerState (fun _ => 0) where
  db := .withConfig _ 1 0
  replState := .newReplica "localhost" 6379
  channels := fun _ => none
  cluster := none

/-- The two operations happen in one order and the two propagations in the
other. -/
def crossedActions : List WriterAction :=
  [.issue 0 (rawSet "a"), .issue 1 (rawSet "b"), .operate 0 someMoment,
    .operate 1 someMoment, .propagate 1, .propagate 0]

theorem crossed_propagation :
    ∃ final, runActions step (start sampleMaster) crossedActions = some final ∧
      (∀ client, final.writers client = none) ∧
      final.sent 7 = [rawSet "b", rawSet "a"] ∧
      final.server.db.contents "k" = some (asBytes "b", none) ∧
      (final.replayed 7 (fun _ => someMoment) sampleReplica).db.contents "k" =
        some (asBytes "a", none) := by
  have ends : (runActions step (start sampleMaster) crossedActions).isSome := by
    decide +kernel
  have frames : (runActions step (start sampleMaster) crossedActions).map
      (sent 7) = some [rawSet "b", rawSet "a"] := by
    decide +kernel
  have stored : (runActions step (start sampleMaster) crossedActions).map
      (fun final => final.server.db.contents "k") =
        some (some (asBytes "b", none)) := by
    decide +kernel
  have applied : (runActions step (start sampleMaster) crossedActions).map
      (fun final => (final.replayed 7 (fun _ => someMoment)
        sampleReplica).db.contents "k") = some (some (asBytes "a", none)) := by
    decide +kernel
  have first : (runActions step (start sampleMaster) crossedActions).map
      (fun final => (final.writers 0).isNone && (final.writers 1).isNone) =
        some true := by
    decide +kernel
  obtain ⟨final, ran⟩ := Option.isSome_iff_exists.mp ends
  rw [ran] at frames stored applied first
  refine ⟨final, ran, ?_, Option.some.inj frames, Option.some.inj stored,
    Option.some.inj applied⟩
  obtain ⟨zero, one⟩ := (Bool.and_eq_true _ _).mp (Option.some.inj first)
  intro client
  by_cases isZero : client = 0
  · rw [isZero]
    exact Option.isNone_iff_eq_none.mp zero
  · by_cases isOne : client = 1
    · rw [isOne]
      exact Option.isNone_iff_eq_none.mp one
    · apply writers_of_run ran
      simp [crossedActions, WriterAction.client, Ne.symm isZero, Ne.symm isOne]

/-- The condition on a step, tested for the clients of a list. -/
def undisturbedAmong (clients : List Nat) (system : WriterSystem hasher)
    (action : WriterAction) : Bool :=
  action.client ∈ clients &&
    match action with
    | .operate client _ =>
        (system.writers client).all fun writer =>
          writer.stage.remaining.head?.all fun write =>
            clients.all fun other =>
              other = client || write.key ∉ system.touched other
    | _ => true

theorem undisturbed_of_among {clients : List Nat} {action : WriterAction}
    (idle : ∀ other, other ∉ clients → system.writers other = none)
    (tested : undisturbedAmong clients system action = true) :
    system.Undisturbed action := by
  cases action with
  | issue client rawCmd => trivial
  | propagate client => trivial
  | operate client moment =>
      intro writer busy write first other differ
      by_cases listed : other ∈ clients
      · have found : system.writers client = some writer := busy
        have head : writer.stage.remaining.head? = some write := first
        simp only [undisturbedAmong, found, head, Option.all_some,
          Bool.and_eq_true, List.all_eq_true, Bool.or_eq_true,
          decide_eq_true_eq] at tested
        exact (tested.2 other listed).resolve_left differ
      · rw [touched, idle other listed]
        exact List.not_mem_nil

theorem reaches_of_among {clients : List Nat} {actions : List WriterAction}
    {server : ServerState hasher} {final : WriterSystem hasher}
    (ran : runActions
      (fun system action =>
        if undisturbedAmong clients system action then step system action
        else none) (start server) actions = some final) :
    Reaches step Undisturbed (start server) actions final := by
  have kept : ∀ {state : WriterSystem hasher} {action next},
      (∀ other, other ∉ clients → state.writers other = none) →
      undisturbedAmong clients state action = true →
      state.step action = some next →
      ∀ other, other ∉ clients → next.writers other = none := by
    intro state action next idle tested taken other unlisted
    have differ : action.client ≠ other := by
      rintro rfl
      exact unlisted (of_decide_eq_true ((Bool.and_eq_true _ _).mp tested).1)
    exact (writers_of_step differ taken).trans (idle other unlisted)
  exact reaches_of_checked undisturbed_of_among kept (fun _ _ => rfl) ran

/-- Two clients take turns on a key while a third deletes it and another. -/
def turnsActions : List WriterAction :=
  [.issue 0 (rawSet "a"), .issue 1 (rawSet "b"), .issue 2 rawDel,
    .operate 0 someMoment, .propagate 0, .operate 1 someMoment, .propagate 1,
    .operate 2 someMoment, .issue 0 rawDel, .operate 2 someMoment,
    .propagate 2, .operate 0 someMoment, .operate 0 someMoment, .propagate 0]

theorem turns_clients :
    ∀ action ∈ turnsActions, action.client ∈ [0, 1, 2] := by
  simp [turnsActions, WriterAction.client]

theorem orders_agree_turns :
    ∃ final, Reaches step Undisturbed (start sampleMaster) turnsActions final ∧
      (∀ client, final.writers client = none) ∧
      final.sent 7 = [rawSet "a", rawSet "b", rawDel] ∧
      (final.replayed 7 (fun _ => someMoment) sampleReplica).db.contents =
        final.server.db.contents := by
  have ends : (runActions (fun system action =>
      if undisturbedAmong [0, 1, 2] system action then step system action
      else none) (start sampleMaster) turnsActions).isSome := by
    decide +kernel
  have frames : (runActions step (start sampleMaster) turnsActions).map
      (sent 7) = some [rawSet "a", rawSet "b", rawDel] := by
    decide +kernel
  have done : (runActions step (start sampleMaster) turnsActions).map
      (fun final => [0, 1, 2].all fun client =>
        (final.writers client).isNone) = some true := by
    decide +kernel
  obtain ⟨final, ran⟩ := Option.isSome_iff_exists.mp ends
  have reaches := reaches_of_among ran
  rw [reaches.runs] at frames done
  have idle : ∀ client, final.writers client = none := by
    intro client
    by_cases listed : client ∈ [0, 1, 2]
    · exact Option.isNone_iff_eq_none.mp
        (List.all_eq_true.mp (Option.some.inj done) client listed)
    · apply writers_of_run reaches.runs
      rintro action member rfl
      exact listed (turns_clients action member)
  have registered :
      sampleMaster.replState.downstreamSenders.count 7 = 1 := by
    decide
  have same : sampleMaster.db.contents = sampleReplica.db.contents := rfl
  have agree := orders_agree (fun _ => someMoment) rfl registered rfl rfl rfl
    same reaches
  exact ⟨final, reaches, idle, Option.some.inj frames, agree.2 idle⟩

end WriterSystem

end RustiCache
