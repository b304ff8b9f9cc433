import RustiCache.HandshakeProgress
import RustiCache.IncrementalReaders
import RustiCache.NumeralGrammar

/-!
# Which masters a replica accepts

The replica's side of the handshake is a reader that does the same with the
bytes of the master however they arrive.  It gets to the stream of commands for
exactly those bytes that consist of a line for each question, a line of text
that begins with `+FULLRESYNC`, a length in decimal after a dollar sign, and as
many bytes as that; what follows is left for the stream.
-/

namespace RustiCache

namespace UnsignedNumeral

variable {numeral : Bytes} {number : Nat}

theorem signed (spells : UnsignedNumeral numeral number) :
    Numeral numeral number := by
  cases spells with
  | plain nonempty => exact .plain nonempty
  | plus nonempty => exact .plus nonempty

theorem exists_text (spells : UnsignedNumeral numeral number) :
    ∃ text, asBytes text = numeral :=
  spells.signed.exists_text

theorem return_not_mem (spells : UnsignedNumeral numeral number) :
    (13 : UInt8) ∉ numeral := by
  intro member
  have bound := spells.signed.toNat_of_mem member
  revert bound
  decide

end UnsignedNumeral

namespace ReplicaTask

open HandshakeCommand (psync questions handshake)

/-- Send the next command or read from the buffer, whichever is due. -/
def goOn (task : ReplicaTask) : Option ReplicaTask :=
  match task.send with
  | some (_, next) => some next
  | none => task.advance

def feed (task : ReplicaTask) (bytes : Bytes) : ReplicaTask :=
  { task with buffer := task.buffer ++ bytes }

/-- How many steps the handshake has left at most. -/
def stepsLeft (task : ReplicaTask) : Nat :=
  match task.stage with
  | .sending _ later => 2 * later.length + 4
  | .awaiting _ later => 2 * later.length + 3
  | .rdbHeader => 2
  | .rdbPayload _ => 1
  | _ => 0

theorem consume_feed {task : ReplicaTask} {count : Nat}
    (within : count ≤ task.buffer.length) (more : Bytes) :
    (task.feed more).consume count = (task.consume count).feed more := by
  simp only [consume, feed]
  rw [List.drop_append_of_le_length within, List.take_append_of_le_length within]

theorem line_within {buffer text : Bytes} {consumed : Nat}
    (found : Value.getLine buffer = some (text, consumed)) :
    consumed ≤ buffer.length := by
  obtain ⟨size, rest, layout⟩ := Value.getLine_spec found
  rw [layout, size]
  simp [Value.crlf]

/-- The text of a line opens a full resynchronization. -/
def isFullresync (text : String) : Bool :=
  "+FULLRESYNC".toList.isPrefixOf text.toList

/-- The replication state after the line of the resynchronization: with three
words or more, the second is the master's id. -/
def adopt (text : String) (replState : ReplicationState) : ReplicationState :=
  if 3 ≤ (splitWhitespace (trim text)).length then
    replState.setReplid ((splitWhitespace (trim text)).getD 1 "")
  else
    replState

/-- What a line in reply to `PSYNC` leads to. -/
def resync (line : Bytes) (later : List HandshakeCommand)
    (replState : ReplicationState) : ReplicationState × HandshakeStage :=
  match fromUtf8 line with
  | .error invalid => (replState, .failed invalid.message)
  | .ok text =>
      if isFullresync text then
        (adopt text replState, proceed later)
      else
        (replState, .failed ("Expected +FULLRESYNC, got: " ++ trim text))

/-- What the header of the snapshot leads to. -/
def snapshotStage (line : Bytes) : HandshakeStage :=
  match fromUtf8 (line.drop 1) with
  | .error invalid => .failed invalid.message
  | .ok lenStr =>
      match usize.parse (asBytes lenStr) with
      | .error _ => .failed "Invalid RDB length"
      | .ok rdbLen => .rdbPayload rdbLen.toNat

theorem readFullresyncResponse_eq (task : ReplicaTask)
    (later : List HandshakeCommand) :
    task.readFullresyncResponse later =
      (Value.getLine task.buffer).map fun (_, consumed) =>
        { task.consume consumed with
          replState :=
            (resync (task.buffer.take consumed) later task.replState).1
          stage :=
            (resync (task.buffer.take consumed) later task.replState).2 } := by
  rw [readFullresyncResponse]
  cases Value.getLine task.buffer with
  | none => rfl
  | some found =>
      simp only [Option.map_some, Option.some.injEq, resync]
      cases fromUtf8 (task.buffer.take found.2) with
      | error invalid => rfl
      | ok text =>
          change (if isFullresync text then _ else _) = _
          cases accepted : isFullresync text with
          | false => simp only [accepted, Bool.false_eq_true, if_false, consume]
          | true => simp only [accepted, if_true, adopt]

theorem readRdbHeader_eq (task : ReplicaTask) :
    task.readRdbHeader =
      if task.buffer.head? = some 36 then
        (Value.getLine task.buffer).map fun (line, consumed) =>
          { task.consume consumed with stage := snapshotStage line }
      else
        none := by
  rw [readRdbHeader]
  cases Value.getLine task.buffer with
  | none => rfl
  | some found =>
      simp only [Option.map_some, snapshotStage]
      cases fromUtf8 (found.1.drop 1) with
      | error invalid => rfl
      | ok lenStr =>
          dsimp only
          cases usize.parse (asBytes lenStr) with
          | error invalid => rfl
          | ok rdbLen => rfl

/-- More bytes do not change what is done with those in the buffer. -/
theorem advance_feed {task next : ReplicaTask}
    (advanced : task.advance = some next) (more : Bytes) :
    (task.feed more).advance = some (next.feed more) := by
  have kept : ∀ {text consumed},
      Value.getLine task.buffer = some (text, consumed) →
      Value.getLine (task.feed more).buffer = some (text, consumed) ∧
        (task.feed more).consume consumed =
          (task.consume consumed).feed more ∧
        (task.feed more).buffer.take consumed = task.buffer.take consumed :=
    fun found => ⟨Value.getLine_append found more,
      consume_feed (line_within found) more,
      List.take_append_of_le_length (line_within found)⟩
  cases stage : task.stage with
  | sending cmd later => simp [advance, stage] at advanced
  | awaiting cmd later =>
      by_cases asks : cmd = psync
      · subst asks
        have reader : (task.feed more).advance =
            (task.feed more).readFullresyncResponse later := by
          rw [advance, feed, stage]
        rw [advance, stage] at advanced
        simp only [readFullresyncResponse_eq] at advanced
        obtain ⟨⟨text, consumed⟩, found, rfl⟩ :=
          Option.map_eq_some_iff.mp advanced
        obtain ⟨still, taken, line⟩ := kept found
        rw [reader, readFullresyncResponse_eq, still, Option.map_some]
        simp only [taken, line]
        rfl
      · have reader : (task.feed more).advance =
            (task.feed more).readSimpleResponse later :=
          advance_simple asks stage
        rw [advance_simple asks stage] at advanced
        obtain ⟨⟨text, consumed⟩, found, rfl⟩ :=
          Option.map_eq_some_iff.mp advanced
        obtain ⟨still, taken, -⟩ := kept found
        rw [reader, readSimpleResponse, still, Option.map_some]
        simp only [taken]
        rfl
  | rdbHeader =>
      have reader : (task.feed more).advance =
          (task.feed more).readRdbHeader := by
        rw [advance, feed, stage]
      rw [advance, stage] at advanced
      simp only [readRdbHeader_eq] at advanced
      split at advanced
      next dollar =>
        obtain ⟨⟨text, consumed⟩, found, rfl⟩ :=
          Option.map_eq_some_iff.mp advanced
        obtain ⟨still, taken, -⟩ := kept found
        have first : (task.feed more).buffer.head? = some 36 := by
          rw [feed, List.head?_append, dollar]
          rfl
        rw [reader, readRdbHeader_eq, if_pos first, still, Option.map_some]
        simp only [taken]
        rfl
      next => cases advanced
  | rdbPayload rdbLen =>
      have reader : (task.feed more).advance =
          (task.feed more).readRdbPayload rdbLen := by
        rw [advance, feed, stage]
      rw [advance, stage] at advanced
      simp only [readRdbPayload] at advanced
      split at advanced
      next => cases advanced
      next enough =>
        cases advanced
        have within : rdbLen ≤ task.buffer.length := Nat.le_of_not_lt enough
        have still : ¬ (task.feed more).buffer.length < rdbLen := by
          simp only [feed, List.length_append]
          omega
        rw [reader, readRdbPayload, if_neg still, consume_feed within]
        rfl
  | streaming => simp [advance, stage] at advanced
  | failed reason => simp [advance, stage] at advanced

theorem stepsLeft_proceed {task : ReplicaTask} {later : List HandshakeCommand}
    (stage : task.stage = proceed later) :
    task.stepsLeft < 2 * later.length + 3 := by
  rw [stepsLeft, stage, proceed.eq_def]
  cases later with
  | nil => simp
  | cons cmd others =>
      simp only [List.length_cons]
      omega

theorem stepsLeft_resync (line : Bytes) (later : List HandshakeCommand)
    (replState : ReplicationState) {task : ReplicaTask}
    (stage : task.stage = (resync line later replState).2) :
    task.stepsLeft < 2 * later.length + 3 := by
  rw [resync] at stage
  split at stage
  next => simp [stepsLeft, stage]
  next =>
    split at stage
    next => exact stepsLeft_proceed stage
    next => simp [stepsLeft, stage]

theorem stepsLeft_snapshot (line : Bytes) {task : ReplicaTask}
    (stage : task.stage = snapshotStage line) : task.stepsLeft < 2 := by
  rw [snapshotStage] at stage
  split at stage
  next => simp [stepsLeft, stage]
  next => split at stage <;> simp [stepsLeft, stage]

/-- Every reply that is read takes the handshake closer to its end. -/
theorem stepsLeft_advance {task next : ReplicaTask}
    (advanced : task.advance = some next) : next.stepsLeft < task.stepsLeft := by
  cases stage : task.stage with
  | sending cmd later => simp [advance, stage] at advanced
  | awaiting cmd later =>
      have before : task.stepsLeft = 2 * later.length + 3 := by
        rw [stepsLeft, stage]
      rw [before]
      by_cases asks : cmd = psync
      · subst asks
        rw [advance, stage] at advanced
        simp only [readFullresyncResponse_eq] at advanced
        obtain ⟨⟨text, consumed⟩, -, rfl⟩ := Option.map_eq_some_iff.mp advanced
        exact stepsLeft_resync _ later _ rfl
      · rw [advance_simple asks stage] at advanced
        obtain ⟨⟨text, consumed⟩, -, rfl⟩ := Option.map_eq_some_iff.mp advanced
        exact stepsLeft_proceed rfl
  | rdbHeader =>
      have before : task.stepsLeft = 2 := by rw [stepsLeft, stage]
      rw [before]
      rw [advance, stage] at advanced
      simp only [readRdbHeader_eq] at advanced
      split at advanced
      next =>
        obtain ⟨⟨line, consumed⟩, -, rfl⟩ := Option.map_eq_some_iff.mp advanced
        exact stepsLeft_snapshot line rfl
      next => cases advanced
  | rdbPayload rdbLen =>
      rw [advance, stage] at advanced
      simp only [readRdbPayload] at advanced
      split at advanced
      next => cases advanced
      next =>
        cases advanced
        simp [stepsLeft, stage]
  | streaming => simp [advance, stage] at advanced
  | failed reason => simp [advance, stage] at advanced

theorem goOn_of_send {task next : ReplicaTask} {bytes : Bytes}
    (sent : task.send = some (bytes, next)) : task.goOn = some next := by
  rw [goOn, sent]

theorem goOn_of_advance {task next : ReplicaTask}
    (advanced : task.advance = some next) : task.goOn = some next := by
  have nothing : task.send = none := by
    rw [send]
    split
    next cmd later stage => simp [advance, stage] at advanced
    next => rfl
  rw [goOn, nothing, advanced]

theorem goOn_cases {task next : ReplicaTask} (goes : task.goOn = some next) :
    (∃ bytes, task.send = some (bytes, next)) ∨ task.advance = some next := by
  rw [goOn] at goes
  split at goes
  next bytes after sent =>
    cases goes
    exact Or.inl ⟨bytes, sent⟩
  next => exact Or.inr goes

/-- The replica's side of the handshake as a reader of the master's bytes. -/
def reader : IncrementalReader ReplicaTask UInt8 where
  advance := goOn
  feed := feed
  rank := stepsLeft
  feed_nil := fun task => by simp [feed]
  feed_append := fun task first second => by simp [feed]
  advance_feed := by
    intro task next goes more
    rcases goOn_cases goes with ⟨bytes, sent⟩ | advanced
    · obtain ⟨cmd, later, stage, rfl, rfl⟩ := ReplicationLink.send_cases sent
      simp [goOn, send, feed, stage]
    · exact goOn_of_advance (advance_feed advanced more)
  rank_advance := by
    intro task next goes
    rcases goOn_cases goes with ⟨bytes, sent⟩ | advanced
    · obtain ⟨cmd, later, stage, rfl, rfl⟩ := ReplicationLink.send_cases sent
      simp [stepsLeft, stage]
    · exact stepsLeft_advance advanced

/-- Nothing goes wrong with the socket, and the master does not hang up. -/
def Undisturbed (_ : ReplicaTask) : TaskEvent → Prop
  | .receive chunk => chunk ≠ []
  | .fail _ => False
  | _ => True

theorem moves_of_step {task next : ReplicaTask} {event : TaskEvent}
    (undisturbed : Undisturbed task event) (taken : task.step event = some next) :
    task.goOn = some next ∧ event.chunk = [] ∨ next = task.feed event.chunk := by
  cases event with
  | send =>
      obtain ⟨⟨bytes, after⟩, sent, rfl⟩ := Option.map_eq_some_iff.mp taken
      exact Or.inl ⟨goOn_of_send sent, rfl⟩
  | advance => exact Or.inl ⟨goOn_of_advance taken, rfl⟩
  | receive chunk =>
      right
      rw [step, receive] at taken
      split at taken
      next =>
        rw [if_neg undisturbed] at taken
        exact (Option.some.inj taken).symm
      next => cases taken
  | fail reason => cases undisturbed

/-- The task waits for the master or is done. -/
def AtRest (task : ReplicaTask) : Prop :=
  task.goOn = none

/-- Where the handshake comes to rest depends on the master's bytes and not on
how they are cut into reads. -/
theorem rest_determined {start task : ReplicaTask} {events : List TaskEvent}
    (reaches : Reaches step Undisturbed start events task)
    (rests : task.AtRest) :
    task = reader.settle (start.feed (TaskEvent.received events)) :=
  reader.eq_settle_of_reaches TaskEvent.chunk
    (fun undisturbed taken => moves_of_step undisturbed taken) reaches rests

/-- Two masters that send the same bytes take the handshake of a replica to the
same place, down to the bytes it has credited to each of its commands. -/
theorem chunking_immaterial (start first second : ReplicaTask)
    (firstEvents secondEvents : List TaskEvent)
    (firstReaches : Reaches step Undisturbed start firstEvents first)
    (secondReaches : Reaches step Undisturbed start secondEvents second)
    (firstRests : first.AtRest) (secondRests : second.AtRest)
    (same : TaskEvent.received firstEvents = TaskEvent.received secondEvents) :
    first = second := by
  rw [rest_determined firstReaches firstRests,
    rest_determined secondReaches secondRests, same]

/-- A refusal in two reads, and in one. -/
def refusedTwice : List (List TaskEvent) :=
  [[.send, .receive (asBytes "-NO"), .receive (asBytes "AUTH\r\n"), .advance,
      .send, .receive (asBytes "-"), .receive (asBytes "ERR\r")],
    [.send, .receive (asBytes "-NOAUTH\r\n-ERR\r"), .advance, .send]]

theorem chunking_immaterial_refusedTwice :
    ∃ first second : ReplicaTask,
      Reaches step Undisturbed
          (start none 6380 (.newReplica "127.0.0.1" 6379))
          (refusedTwice.getD 0 []) first ∧
        Reaches step Undisturbed
          (start none 6380 (.newReplica "127.0.0.1" 6379))
          (refusedTwice.getD 1 []) second ∧ first = second := by
  have rests : ∀ {events task}, runActions step
      (start none 6380 (.newReplica "127.0.0.1" 6379)) events = some task →
      (runActions step (start none 6380 (.newReplica "127.0.0.1" 6379))
        events).map (fun task => task.goOn.isNone) = some true →
      task.AtRest := by
    intro events task ran shown
    rw [ran, Option.map_some, Option.some.injEq] at shown
    exact Option.isNone_iff_eq_none.mp shown
  have undisturbed : ∀ events ∈ refusedTwice, ∀ event ∈ events,
      ∀ task, Undisturbed task event := by
    intro events among event member task
    simp only [refusedTwice, List.mem_cons, List.not_mem_nil, or_false] at among
    rcases among with rfl | rfl
    all_goals
      simp only [List.mem_cons, List.not_mem_nil, or_false] at member
      rcases member with rfl | rfl | rfl | rfl | rfl | rfl | rfl <;>
        simp [Undisturbed] <;> decide
  obtain ⟨first, ranFirst⟩ := Option.isSome_iff_exists.mp
    (show (runActions step (start none 6380 (.newReplica "127.0.0.1" 6379))
      (refusedTwice.getD 0 [])).isSome by decide +kernel)
  obtain ⟨second, ranSecond⟩ := Option.isSome_iff_exists.mp
    (show (runActions step (start none 6380 (.newReplica "127.0.0.1" 6379))
      (refusedTwice.getD 1 [])).isSome by decide +kernel)
  have firstReaches : Reaches step Undisturbed _ _ first :=
    reaches_of_always (undisturbed _ (by simp [refusedTwice])) ranFirst
  have secondReaches : Reaches step Undisturbed _ _ second :=
    reaches_of_always (undisturbed _ (by simp [refusedTwice])) ranSecond
  exact ⟨first, second, firstReaches, secondReaches,
    chunking_immaterial _ first second _ _ firstReaches secondReaches
      (rests ranFirst (by decide +kernel)) (rests ranSecond (by decide +kernel))
      (by decide +kernel)⟩

/-- The length of a snapshot, the snapshot, and what comes after it. -/
def SnapshotStream (stream rest : Bytes) : Prop :=
  ∃ numeral payload, UnsignedNumeral numeral payload.length ∧
    payload.length < 2 ^ 64 ∧
    stream = 36 :: numeral ++ Value.crlf ++ (payload ++ rest)

/-- The bytes of a master that take a replica to the stream: the lines that
answer its questions, the line of the resynchronization, and a snapshot. -/
inductive MasterStream (before after : ReplicationState) (rest : Bytes) :
    Nat → Bytes → Prop where
  | resync {text : String} {body tail : Bytes}
      (line : asBytes text = body ++ Value.crlf)
      (clean : ¬ Value.crlf <:+: body) (opens : isFullresync text)
      (adopted : after = adopt text before) (snapshot : SnapshotStream tail rest) :
      MasterStream before after rest 0 (asBytes text ++ tail)
  | answer {questions : Nat} {line tail : Bytes}
      (clean : ¬ Value.crlf <:+: line)
      (more : MasterStream before after rest questions tail) :
      MasterStream before after rest (questions + 1)
        (line ++ Value.crlf ++ tail)

/-- The handshake ends in the stream with this state and these bytes left. -/
def Ends (after : ReplicationState) (rest : Bytes) (task : ReplicaTask) : Prop :=
  (reader.settle task).stage = .streaming ∧
    (reader.settle task).replState = after ∧ (reader.settle task).buffer = rest

section Ends

variable {after : ReplicationState} {rest : Bytes} {task next : ReplicaTask}

theorem ends_of_goOn (goes : task.goOn = some next) :
    task.Ends after rest ↔ next.Ends after rest := by
  have same : reader.settle task = reader.settle next :=
    reader.settle_of_advance goes
  rw [Ends, Ends, same]

theorem ends_of_rest (rests : task.goOn = none) :
    task.Ends after rest ↔
      task.stage = .streaming ∧ task.replState = after ∧ task.buffer = rest := by
  have same : reader.settle task = task := reader.settle_of_rest rests
  rw [Ends, same]

theorem ends_of_failed {reason : String} (failed : task.stage = .failed reason) :
    ¬ task.Ends after rest := by
  have rests : task.goOn = none := by
    simp [goOn, send, advance, failed]
  rw [ends_of_rest rests, failed]
  simp

theorem ends_of_streaming (streaming : task.stage = .streaming) :
    task.Ends after rest ↔ task.replState = after ∧ task.buffer = rest := by
  have rests : task.goOn = none := by
    simp [goOn, send, advance, streaming]
  rw [ends_of_rest rests, streaming]
  simp

theorem goOn_of_not_sending (idle : ∀ cmd later, task.stage ≠ .sending cmd later) :
    task.goOn = task.advance := by
  have nothing : task.send = none := by
    rw [send]
    split
    next cmd later stage => exact absurd stage (idle cmd later)
    next => rfl
  rw [goOn, nothing]

theorem ends_payload {rdbLen : Nat} (stage : task.stage = .rdbPayload rdbLen) :
    task.Ends after rest ↔ task.replState = after ∧
      ∃ payload, payload.length = rdbLen ∧ task.buffer = payload ++ rest := by
  have reads : task.goOn = task.readRdbPayload rdbLen := by
    rw [goOn_of_not_sending (by simp [stage]), advance, stage]
  by_cases short : task.buffer.length < rdbLen
  · have rests : task.goOn = none := by
      rw [reads, readRdbPayload, if_pos short]
    rw [ends_of_rest rests, stage]
    constructor
    · rintro ⟨streaming, -⟩
      cases streaming
    · rintro ⟨-, payload, size, layout⟩
      rw [layout, List.length_append] at short
      omega
  · have goes : task.goOn =
        some { task.consume rdbLen with stage := .streaming } := by
      rw [reads, readRdbPayload, if_neg short]
    rw [ends_of_goOn goes, ends_of_streaming rfl]
    refine and_congr_right fun _ => ?_
    change task.buffer.drop rdbLen = rest ↔ _
    constructor
    · rintro rfl
      refine ⟨task.buffer.take rdbLen, ?_, (List.take_append_drop ..).symm⟩
      rw [List.length_take]
      omega
    · rintro ⟨payload, rfl, layout⟩
      rw [layout, List.drop_left]

theorem snapshotStage_numeral {numeral : Bytes} {length : Nat}
    (spells : UnsignedNumeral numeral length) (small : length < 2 ^ 64) :
    snapshotStage (36 :: numeral) = .rdbPayload length := by
  obtain ⟨text, rfl⟩ := spells.exists_text
  have parsed : usize.parse (asBytes text) = .ok (length : Int) :=
    (usize.parse_unsigned_ok_iff rfl _ _).mpr ⟨length, rfl, spells, by
      simp only [IntType.Fits, usize]
      omega⟩
  rw [snapshotStage, List.drop_one, List.tail_cons, fromUtf8_asBytes]
  simp only [parsed, Int.toNat_natCast]

theorem numeral_of_snapshotStage {line : Bytes} {length : Nat}
    (stage : snapshotStage line = .rdbPayload length) :
    UnsignedNumeral (line.drop 1) length ∧ length < 2 ^ 64 := by
  rw [snapshotStage] at stage
  split at stage
  next => cases stage
  next lenStr decoded =>
    split at stage
    next => cases stage
    next value parsed =>
      cases stage
      obtain ⟨number, rfl, spells, fits⟩ :=
        (usize.parse_unsigned_ok_iff rfl _ _).mp parsed
      rw [asBytes_of_fromUtf8 decoded] at spells
      rw [Int.toNat_natCast]
      simp only [IntType.Fits, usize] at fits
      exact ⟨spells, by omega⟩

theorem snapshotStage_cases (line : Bytes) :
    (∃ length, snapshotStage line = .rdbPayload length) ∨
      ∃ reason, snapshotStage line = .failed reason := by
  rw [snapshotStage]
  split
  next => exact Or.inr ⟨_, rfl⟩
  next =>
    split
    next => exact Or.inr ⟨_, rfl⟩
    next => exact Or.inl ⟨_, rfl⟩

/-- The header line of a snapshot is the first line of its bytes. -/
theorem getLine_snapshot {numeral tail : Bytes} {length : Nat}
    (spells : UnsignedNumeral numeral length) :
    Value.getLine (36 :: numeral ++ Value.crlf ++ tail) =
      some (36 :: numeral, (36 :: numeral).length + 2) := by
  apply Value.getLine_crlf
  apply Value.clean_of_not_mem
  rw [List.mem_cons]
  rintro (same | member)
  · cases same
  · exact spells.return_not_mem member

theorem ends_header (stage : task.stage = .rdbHeader) :
    task.Ends after rest ↔
      task.replState = after ∧ SnapshotStream task.buffer rest := by
  have reads : task.goOn = task.readRdbHeader := by
    rw [goOn_of_not_sending (by simp [stage]), advance, stage]
  rw [readRdbHeader_eq] at reads
  have waits : task.goOn = none → ¬ task.Ends after rest := by
    intro rests
    rw [ends_of_rest rests, stage]
    simp
  by_cases dollar : task.buffer.head? = some 36
  · rw [if_pos dollar] at reads
    cases found : Value.getLine task.buffer with
    | none =>
        rw [found] at reads
        refine iff_of_false (waits reads) ?_
        rintro ⟨-, numeral, payload, spells, -, layout⟩
        rw [layout, getLine_snapshot spells] at found
        cases found
    | some cut =>
        obtain ⟨line, consumed⟩ := cut
        rw [found, Option.map_some] at reads
        rw [ends_of_goOn reads]
        constructor
        · intro ends
          rcases snapshotStage_cases line with
            ⟨length, reached⟩ | ⟨reason, reached⟩
          · obtain ⟨same, payload, rfl, layout⟩ :=
              (ends_payload reached).mp ends
            obtain ⟨spells, small⟩ := numeral_of_snapshotStage reached
            obtain ⟨rfl, behind, whole⟩ := Value.getLine_spec found
            cases line with
            | nil =>
                rw [whole] at dollar
                cases dollar
            | cons first numeral =>
                rw [whole] at dollar
                obtain rfl : first = 36 := Option.some.inj dollar
                refine ⟨same, numeral, payload, spells, small, ?_⟩
                have left : task.buffer.drop ((36 :: numeral).length + 2) =
                    payload ++ rest := layout
                rw [whole] at left ⊢
                rw [List.drop_left' (by simp [Value.crlf])] at left
                rw [left]
          · exact absurd ends (ends_of_failed reached)
        · rintro ⟨same, numeral, payload, spells, small, layout⟩
          rw [layout, getLine_snapshot spells] at found
          cases found
          refine (ends_payload (snapshotStage_numeral spells small)).mpr
            ⟨same, payload, rfl, ?_⟩
          change task.buffer.drop _ = _
          rw [layout, List.drop_left' (by simp [Value.crlf])]
  · rw [if_neg dollar] at reads
    refine iff_of_false (waits reads) ?_
    rintro ⟨-, numeral, payload, -, -, layout⟩
    rw [layout] at dollar
    exact dollar rfl

theorem resync_of_opens {text : String} (opens : isFullresync text)
    (later : List HandshakeCommand) (replState : ReplicationState) :
    resync (asBytes text) later replState =
      (adopt text replState, proceed later) := by
  rw [resync, fromUtf8_asBytes]
  simp only [opens, if_true]

theorem resync_cases (line : Bytes) (later : List HandshakeCommand)
    (replState : ReplicationState) :
    (∃ text, asBytes text = line ∧ isFullresync text ∧
        resync line later replState = (adopt text replState, proceed later)) ∨
      ∃ reason, (resync line later replState).2 = .failed reason := by
  cases decoded : fromUtf8 line with
  | error invalid =>
      right
      rw [resync, decoded]
      exact ⟨_, rfl⟩
  | ok text =>
      have same := asBytes_of_fromUtf8 decoded
      cases opens : isFullresync text with
      | true =>
          left
          refine ⟨text, same, opens, ?_⟩
          rw [← same]
          exact resync_of_opens opens later replState
      | false =>
          right
          refine ⟨"Expected +FULLRESYNC, got: " ++ trim text, ?_⟩
          simp only [resync, decoded, opens, Bool.false_eq_true, if_false]

theorem ends_psync (stage : task.stage = .awaiting psync []) :
    task.Ends after rest ↔
      MasterStream task.replState after rest 0 task.buffer := by
  have reads : task.goOn = task.readFullresyncResponse [] := by
    rw [goOn_of_not_sending (by simp [stage]), advance, stage]
  rw [readFullresyncResponse_eq] at reads
  cases found : Value.getLine task.buffer with
  | none =>
      rw [found] at reads
      rw [ends_of_rest reads, stage]
      refine iff_of_false (by simp) ?_
      generalize task.buffer = stream at found
      rintro (@⟨text, body, tail, line, clean, -, -, -⟩)
      rw [line, Value.getLine_crlf clean] at found
      cases found
  | some cut =>
      obtain ⟨body, consumed⟩ := cut
      obtain ⟨rfl, tail, whole⟩ := Value.getLine_spec found
      have clean := Value.getLine_clean found
      have taken : task.buffer.take (body.length + 2) = body ++ Value.crlf := by
        rw [whole, List.take_left' (by simp [Value.crlf])]
      have left : task.buffer.drop (body.length + 2) = tail := by
        rw [whole, List.drop_left' (by simp [Value.crlf])]
      rw [found, Option.map_some] at reads
      dsimp only at reads
      rw [taken] at reads
      obtain ⟨next, goes, reached, kept, remaining⟩ : ∃ next,
          task.goOn = some next ∧
          next.stage = (resync (body ++ Value.crlf) [] task.replState).2 ∧
          next.replState = (resync (body ++ Value.crlf) [] task.replState).1 ∧
          next.buffer = tail :=
        ⟨_, reads, rfl, rfl, left⟩
      rw [ends_of_goOn goes]
      constructor
      · intro ends
        rcases resync_cases (body ++ Value.crlf) [] task.replState with
          ⟨text, line, opens, outcome⟩ | ⟨reason, outcome⟩
        · rw [outcome] at reached kept
          dsimp only at kept
          obtain ⟨adopted, snapshot⟩ := (ends_header reached).mp ends
          rw [remaining] at snapshot
          rw [whole, ← line]
          exact .resync line clean opens (adopted.symm.trans kept) snapshot
        · exact absurd ends (ends_of_failed (reached.trans outcome))
      · intro stream
        generalize bytes : task.buffer = buffer at stream
        cases stream with
        | @resync text other behind line otherClean opens adopted snapshot =>
            rw [bytes, line, Value.getLine_crlf otherClean] at found
            cases found
            have same : behind = tail := by
              rw [bytes, line, List.drop_left' (by simp [Value.crlf])] at left
              exact left
            rw [← line, resync_of_opens opens] at reached kept
            dsimp only at kept
            rw [ends_header reached, kept, remaining, ← same]
            exact ⟨adopted.symm, snapshot⟩

theorem masterStream_succ {before : ReplicationState} {questions : Nat}
    {stream : Bytes} :
    MasterStream before after rest (questions + 1) stream ↔
      ∃ line consumed, Value.getLine stream = some (line, consumed) ∧
        MasterStream before after rest questions (stream.drop consumed) := by
  constructor
  · intro whole
    cases whole with
    | @answer _ line tail clean more =>
        refine ⟨line, line.length + 2, Value.getLine_crlf clean tail, ?_⟩
        rwa [List.drop_left' (by simp [Value.crlf])]
  · rintro ⟨line, consumed, found, more⟩
    obtain ⟨rfl, tail, rfl⟩ := Value.getLine_spec found
    rw [List.drop_left' (by simp [Value.crlf])] at more
    exact .answer (Value.getLine_clean found) more

/-- The whole of the bytes, from the next question on. -/
theorem ends_questions {asked : List HandshakeCommand} (asks : psync ∉ asked)
    (stage : task.stage = proceed (asked ++ [psync])) :
    task.Ends after rest ↔
      MasterStream task.replState after rest asked.length task.buffer := by
  induction asked generalizing task with
  | nil =>
      obtain ⟨next, sends, reached, kept, same⟩ : ∃ next,
          task.goOn = some next ∧ next.stage = .awaiting psync [] ∧
          next.replState = task.replState ∧ next.buffer = task.buffer := by
        rw [List.nil_append, proceed.eq_def] at stage
        simp [goOn, send, stage]
      rw [ends_of_goOn sends, ends_psync reached, kept, same]
      rfl
  | cons cmd asked ih =>
      obtain ⟨first, others⟩ := List.ne_and_not_mem_of_not_mem_cons asks
      obtain ⟨next, sends, reached, kept, same⟩ : ∃ next,
          task.goOn = some next ∧
          next.stage = .awaiting cmd (asked ++ [psync]) ∧
          next.replState = task.replState ∧ next.buffer = task.buffer := by
        rw [List.cons_append, proceed.eq_def] at stage
        simp [goOn, send, stage]
      have reads : next.goOn = next.readSimpleResponse (asked ++ [psync]) := by
        rw [goOn_of_not_sending (by simp [reached]),
          advance_simple (Ne.symm first) reached]
      rw [readSimpleResponse] at reads
      rw [ends_of_goOn sends, List.length_cons, masterStream_succ, ← same, ← kept]
      cases found : Value.getLine next.buffer with
      | none =>
          rw [found] at reads
          rw [ends_of_rest reads, reached]
          simp
      | some cut =>
          obtain ⟨line, consumed⟩ := cut
          rw [found, Option.map_some] at reads
          rw [ends_of_goOn reads, ih others rfl]
          simp [consume]

end Ends

/-- The handshake has come to the stream, with the replication state and the
bytes for it, exactly if the master's bytes have the form that leads there. -/
theorem handshake_accepts_iff (masterauth : Option String) (myPort : UInt16)
    (replState : ReplicationState) (events : List TaskEvent) (task : ReplicaTask)
    (reaches : Reaches step Undisturbed (start masterauth myPort replState)
      events task) (rests : task.AtRest) (after : ReplicationState)
    (rest : Bytes) :
    (task.stage = .streaming ∧ task.replState = after ∧ task.buffer = rest) ↔
      MasterStream replState after rest (questions masterauth myPort).length
        (TaskEvent.received events) := by
  have settled := rest_determined reaches rests
  have stage : ((start masterauth myPort replState).feed
      (TaskEvent.received events)).stage =
      proceed (questions masterauth myPort ++ [psync]) := by
    rw [← HandshakeCommand.handshake_eq]
    rfl
  have whole : Ends after rest ((start masterauth myPort replState).feed
      (TaskEvent.received events)) ↔ _ :=
    ends_questions
      (HandshakeCommand.psync_not_mem_questions masterauth myPort) stage
  rw [Ends, ← settled] at whole
  exact whole

/-- A handshake in which the master's bytes come in two reads, the second with
the first byte of the stream. -/
def shortHandshake : List TaskEvent :=
  [.send, .receive (asBytes "+PONG\r\n+O"), .advance, .send,
    .receive (asBytes "K\r\n+OK\r\n+FULLRESYNC id 0\r\n$3\r\nabc*"), .advance,
    .send, .advance, .send, .advance, .advance, .advance]

theorem handshake_accepts_shortHandshake :
    ∃ task : ReplicaTask,
      Reaches step Undisturbed
        (start none 6380 (.newReplica "127.0.0.1" 6379)) shortHandshake task ∧
      task.AtRest ∧ task.stage = .streaming ∧
      MasterStream (.newReplica "127.0.0.1" 6379) task.replState task.buffer 3
        (TaskEvent.received shortHandshake) := by
  have checked : (runActions step
      (start none 6380 (.newReplica "127.0.0.1" 6379)) shortHandshake).map
      ReplicaTask.stage = some .streaming := by
    decide +kernel
  obtain ⟨task, ran, streaming⟩ := Option.map_eq_some_iff.mp checked
  have reaches : Reaches step Undisturbed
      (start none 6380 (.newReplica "127.0.0.1" 6379)) shortHandshake task := by
    refine reaches_of_always ?_ ran
    intro event member state
    simp only [shortHandshake, List.mem_cons, List.not_mem_nil, or_false]
      at member
    rcases member with rfl | rfl | rfl | rfl | rfl | rfl | rfl | rfl | rfl |
      rfl | rfl | rfl <;> simp [Undisturbed] <;> decide
  have rests : task.AtRest := by
    simp [AtRest, goOn, send, advance, streaming]
  exact ⟨task, reaches, rests, streaming,
    (handshake_accepts_iff none 6380 _ shortHandshake task reaches rests
      task.replState task.buffer).mp ⟨streaming, rfl, rfl⟩⟩

end ReplicaTask

end RustiCache
