import RustiCache.ActionRuns
import RustiCache.HandshakeQuestions
import RustiCache.HandshakeTurns

/-!
# The lines a replica has read

The replica's task on its own, with any master: whatever bytes come and in
whichever chunks, each question is answered by the next line of the bytes, and
`PSYNC` is only sent when every question has its line.
-/

namespace RustiCache

/-- What can happen to the replica's task during the handshake. -/
inductive TaskEvent where
  | send
  | advance
  | receive (chunk : Bytes)
  | fail (reason : String)

namespace TaskEvent

def chunk : TaskEvent → Bytes
  | receive chunk => chunk
  | _ => []

/-- The bytes that a sequence of events brings from the master. -/
def received (events : List TaskEvent) : Bytes :=
  events.flatMap chunk

theorem received_append (events later : List TaskEvent) :
    received (events ++ later) = received events ++ received later :=
  List.flatMap_append

theorem received_snoc (events : List TaskEvent) (event : TaskEvent) :
    received (events ++ [event]) = received events ++ event.chunk := by
  simp [received]

end TaskEvent

namespace ReplicaTask

open HandshakeCommand (psync questions handshake)
open ReplicationLink (credit_snoc send_cases receive_cases)

/-- A step of the task; sending and reading may fail at the socket. -/
def step (task : ReplicaTask) : TaskEvent → Option ReplicaTask
  | .send => task.send.map Prod.snd
  | .advance => task.advance
  | .receive chunk => task.receive chunk
  | .fail reason =>
      if task.stage = .streaming then
        none
      else
        some { task with stage := .failed reason }

/-- The size of the array that a reader gives to the socket. -/
def readSize : HandshakeStage → Nat
  | .rdbPayload _ => 8192
  | _ => 1024

/-- The socket returns no more than there is room for. -/
def Fits (task : ReplicaTask) : TaskEvent → Prop
  | .receive chunk => chunk.length ≤ readSize task.stage
  | _ => True

/-- The line in reply to `PSYNC` has been read and accepted. -/
def Resyncing : HandshakeStage → Prop
  | .rdbHeader => True
  | .rdbPayload _ => True
  | .streaming => True
  | _ => False

/-- A question with the bytes read as its reply. -/
def asked (row : HandshakeCommand × Bytes) : Bytes × Bytes :=
  (row.1.bytes, row.2)

/-- How far the task has come: each question so far has been answered by the next
line of the bytes received. -/
inductive Replied (commands : List HandshakeCommand) (received : Bytes)
    (task : ReplicaTask) : Prop where
  | sending (rows : List (HandshakeCommand × Bytes)) {cmd : HandshakeCommand}
      {later : List HandshakeCommand}
      (stage : task.stage = .sending cmd later)
      (split : commands = rows.map Prod.fst ++ cmd :: later)
      (reads : task.reads = rows.map asked)
      (lines : Value.cutLines rows.length received =
        some (rows.map Prod.snd, task.buffer)) : Replied commands received task
  | awaiting (rows : List (HandshakeCommand × Bytes)) {cmd : HandshakeCommand}
      {later : List HandshakeCommand}
      (stage : task.stage = .awaiting cmd later)
      (split : commands = rows.map Prod.fst ++ cmd :: later)
      (reads : task.reads = rows.map asked ++ [(cmd.bytes, [])])
      (lines : Value.cutLines rows.length received =
        some (rows.map Prod.snd, task.buffer)) : Replied commands received task
  | resyncing (rows : List (HandshakeCommand × Bytes)) {reply rest : Bytes}
      (stage : Resyncing task.stage)
      (split : commands = rows.map Prod.fst ++ [psync])
      (reads : task.reads = rows.map asked ++ [(psync.bytes, reply)])
      (lines : Value.cutLines rows.length received =
        some (rows.map Prod.snd, rest)) : Replied commands received task
  | failed (rows : List (HandshakeCommand × Bytes)) {cmd : HandshakeCommand}
      {later : List HandshakeCommand} {pending : List (Bytes × Bytes)}
      {rest : Bytes} {reason : String} (stage : task.stage = .failed reason)
      (split : commands = rows.map Prod.fst ++ cmd :: later)
      (reads : task.reads = rows.map asked ++ pending)
      (current : pending = [] ∨ ∃ reply, pending = [(cmd.bytes, reply)])
      (lines : Value.cutLines rows.length received =
        some (rows.map Prod.snd, rest)) : Replied commands received task

/-- Every command but `PSYNC` waits for a line and nothing else. -/
theorem advance_simple {task : ReplicaTask} {cmd : HandshakeCommand}
    {later : List HandshakeCommand} (asks : cmd ≠ psync)
    (stage : task.stage = .awaiting cmd later) :
    task.advance = task.readSimpleResponse later := by
  rw [advance, stage]
  cases cmd <;> first | rfl | exact absurd rfl asks

/-- What reading from the buffer can do: take the line that answers a question,
take the line that answers `PSYNC`, or take a part of the snapshot. -/
theorem advance_cases {task next : ReplicaTask}
    (advanced : task.advance = some next) :
    (∃ cmd later text consumed, task.stage = .awaiting cmd later ∧
        cmd ≠ psync ∧ Value.getLine task.buffer = some (text, consumed) ∧
        next = { task.consume consumed with stage := proceed later }) ∨
      (∃ later consumed, task.stage = .awaiting psync later ∧
        next.reads = (task.consume consumed).reads ∧
        (next.stage = proceed later ∨ ∃ reason, next.stage = .failed reason)) ∨
      ∃ consumed, Resyncing task.stage ∧
        next.reads = (task.consume consumed).reads ∧
        (Resyncing next.stage ∨ ∃ reason, next.stage = .failed reason) := by
  cases stage : task.stage with
  | sending cmd later => simp [advance, stage] at advanced
  | awaiting cmd later =>
      by_cases asks : cmd = psync
      · right
        left
        subst asks
        rw [advance, stage] at advanced
        obtain ⟨⟨text, consumed⟩, -, rfl⟩ := Option.map_eq_some_iff.mp advanced
        refine ⟨later, consumed, rfl, ?_⟩
        dsimp only
        split
        next => exact ⟨rfl, Or.inr ⟨_, rfl⟩⟩
        next =>
          split
          next => exact ⟨rfl, Or.inl rfl⟩
          next => exact ⟨rfl, Or.inr ⟨_, rfl⟩⟩
      · left
        rw [advance_simple asks stage] at advanced
        obtain ⟨⟨text, consumed⟩, found, rfl⟩ :=
          Option.map_eq_some_iff.mp advanced
        exact ⟨cmd, later, text, consumed, rfl, asks, found, rfl⟩
  | rdbHeader =>
      right
      right
      rw [advance, stage] at advanced
      simp only [readRdbHeader] at advanced
      split at advanced
      next =>
        obtain ⟨⟨line, consumed⟩, -, rfl⟩ := Option.map_eq_some_iff.mp advanced
        refine ⟨consumed, trivial, ?_⟩
        dsimp only
        split
        next => exact ⟨rfl, Or.inr ⟨_, rfl⟩⟩
        next =>
          split
          next => exact ⟨rfl, Or.inr ⟨_, rfl⟩⟩
          next => exact ⟨rfl, Or.inl trivial⟩
      next => cases advanced
  | rdbPayload rdbLen =>
      right
      right
      rw [advance, stage] at advanced
      simp only [readRdbPayload] at advanced
      split at advanced
      next => cases advanced
      next =>
        cases advanced
        exact ⟨rdbLen, trivial, rfl, Or.inl trivial⟩
  | streaming => simp [advance, stage] at advanced
  | failed reason => simp [advance, stage] at advanced

section Progress

variable {masterauth : Option String} {myPort : UInt16} {received : Bytes}
  {task next : ReplicaTask}

/-- The answer to a question is the next line, and another command follows. -/
theorem Replied.answer {rows : List (HandshakeCommand × Bytes)}
    {cmd : HandshakeCommand} {later : List HandshakeCommand} {text : Bytes}
    {consumed : Nat} (asks : cmd ≠ psync)
    (split : handshake masterauth myPort = rows.map Prod.fst ++ cmd :: later)
    (reads : task.reads = rows.map asked ++ [(cmd.bytes, [])])
    (lines : Value.cutLines rows.length received =
      some (rows.map Prod.snd, task.buffer))
    (found : Value.getLine task.buffer = some (text, consumed)) :
    Replied (handshake masterauth myPort) received
      { task.consume consumed with stage := proceed later } := by
  obtain ⟨following, others, rfl⟩ := List.exists_cons_of_ne_nil
    fun last => asks ((HandshakeCommand.last_iff_psync split).mp last)
  have cut := Value.cutLines_snoc lines found
  apply Replied.sending (rows ++ [(cmd, task.buffer.take consumed)]) rfl
  · rw [split]
    simp
  · change credit _ task.reads = _
    rw [reads, credit_snoc]
    simp [asked]
  · simpa [consume] using cut

/-- What is known while a task waits for the reply to a command. -/
theorem Replied.of_awaiting
    (replied : Replied (handshake masterauth myPort) received task)
    {cmd : HandshakeCommand} {later : List HandshakeCommand}
    (stage : task.stage = .awaiting cmd later) :
    ∃ rows : List (HandshakeCommand × Bytes),
      handshake masterauth myPort = rows.map Prod.fst ++ cmd :: later ∧
        task.reads = rows.map asked ++ [(cmd.bytes, [])] ∧
        Value.cutLines rows.length received =
          some (rows.map Prod.snd, task.buffer) := by
  cases replied with
  | awaiting rows awaits split reads lines =>
      rw [awaits] at stage
      cases stage
      exact ⟨rows, split, reads, lines⟩
  | sending _ other => rw [other] at stage; cases stage
  | resyncing _ other => rw [stage] at other; cases other
  | failed _ other => rw [other] at stage; cases stage

/-- A part of the reply to `PSYNC` has been taken. -/
theorem Replied.resync {rows : List (HandshakeCommand × Bytes)}
    {reply rest piece : Bytes}
    (split : handshake masterauth myPort = rows.map Prod.fst ++ [psync])
    (reads : next.reads =
      credit piece (rows.map asked ++ [(psync.bytes, reply)]))
    (lines : Value.cutLines rows.length received =
      some (rows.map Prod.snd, rest))
    (outcome : Resyncing next.stage ∨ ∃ reason, next.stage = .failed reason) :
    Replied (handshake masterauth myPort) received next := by
  rw [credit_snoc] at reads
  rcases outcome with goesOn | ⟨reason, fails⟩
  · exact .resyncing rows goesOn split reads lines
  · exact .failed rows fails split reads (Or.inr ⟨_, rfl⟩) lines

theorem Replied.advance
    (replied : Replied (handshake masterauth myPort) received task)
    (advanced : task.advance = some next) :
    Replied (handshake masterauth myPort) received next := by
  rcases advance_cases advanced with
    ⟨cmd, later, text, consumed, stage, asks, found, rfl⟩ |
      ⟨later, consumed, stage, credited, outcome⟩ |
      ⟨consumed, stage, credited, outcome⟩
  · obtain ⟨rows, split, reads, lines⟩ := replied.of_awaiting stage
    exact Replied.answer asks split reads lines found
  · obtain ⟨rows, split, reads, lines⟩ := replied.of_awaiting stage
    have last : later = [] := (HandshakeCommand.last_iff_psync split).mpr rfl
    rw [last] at split outcome
    rw [consume, reads] at credited
    apply Replied.resync split credited lines
    rcases outcome with goesOn | fails
    · exact Or.inl (by rw [goesOn]; trivial)
    · exact Or.inr fails
  · cases replied with
    | resyncing rows _ split reads lines =>
        rw [consume, reads] at credited
        exact Replied.resync split credited lines outcome
    | sending _ other => rw [other] at stage; cases stage
    | awaiting _ other => rw [other] at stage; cases stage
    | failed _ other => rw [other] at stage; cases stage

theorem Replied.send
    (replied : Replied (handshake masterauth myPort) received task)
    {bytes : Bytes} (sent : task.send = some (bytes, next)) :
    Replied (handshake masterauth myPort) received next := by
  obtain ⟨cmd, later, stage, rfl, rfl⟩ := send_cases sent
  cases replied with
  | sending rows sends split reads lines =>
      rw [sends] at stage
      cases stage
      exact .awaiting rows rfl split (by rw [reads]) lines
  | awaiting _ other => rw [other] at stage; cases stage
  | resyncing _ other => rw [stage] at other; cases other
  | failed _ other => rw [other] at stage; cases stage

/-- Giving up leaves the questions and their answers as they are. -/
theorem Replied.fail
    (replied : Replied (handshake masterauth myPort) received task)
    (reason : String) :
    Replied (handshake masterauth myPort) received
      { task with stage := .failed reason } := by
  cases replied with
  | sending rows _ split reads lines =>
      exact .failed rows rfl split (by rw [reads, List.append_nil]) (Or.inl rfl)
        lines
  | awaiting rows _ split reads lines =>
      exact .failed rows rfl split reads (Or.inr ⟨_, rfl⟩) lines
  | resyncing rows _ split reads lines =>
      exact .failed rows rfl split reads (Or.inr ⟨_, rfl⟩) lines
  | failed rows _ split reads current lines =>
      exact .failed rows rfl split reads current lines

/-- More bytes go to the end of the buffer. -/
theorem Replied.extend
    (replied : Replied (handshake masterauth myPort) received task)
    (chunk : Bytes) :
    Replied (handshake masterauth myPort) (received ++ chunk)
      { task with buffer := task.buffer ++ chunk } := by
  cases replied with
  | sending rows stage split reads lines =>
      exact .sending rows stage split reads (Value.cutLines_append lines chunk)
  | awaiting rows stage split reads lines =>
      exact .awaiting rows stage split reads (Value.cutLines_append lines chunk)
  | resyncing rows stage split reads lines =>
      exact .resyncing rows stage split reads
        (Value.cutLines_append lines chunk)
  | failed rows stage split reads current lines =>
      exact .failed rows stage split reads current
        (Value.cutLines_append lines chunk)

theorem Replied.receive
    (replied : Replied (handshake masterauth myPort) received task)
    {chunk : Bytes} (taken : task.receive chunk = some next) :
    Replied (handshake masterauth myPort) (received ++ chunk) next := by
  by_cases ended : chunk = []
  · rw [ended, List.append_nil]
    rw [ReplicaTask.receive] at taken
    split at taken
    next =>
      rw [if_pos ended] at taken
      cases taken
      exact replied.fail _
    next => cases taken
  · rw [receive_cases ended taken]
    exact replied.extend chunk

theorem Replied.step
    (replied : Replied (handshake masterauth myPort) received task)
    {event : TaskEvent} (taken : task.step event = some next) :
    Replied (handshake masterauth myPort) (received ++ event.chunk) next := by
  cases event with
  | send =>
      obtain ⟨⟨bytes, after⟩, sent, rfl⟩ := Option.map_eq_some_iff.mp taken
      simpa [TaskEvent.chunk] using replied.send sent
  | advance => simpa [TaskEvent.chunk] using replied.advance taken
  | receive chunk => exact replied.receive taken
  | fail reason =>
      rw [ReplicaTask.step] at taken
      split at taken
      next => cases taken
      next =>
        cases taken
        simpa [TaskEvent.chunk] using replied.fail reason

theorem replied_of_reaches {allowed : ReplicaTask → TaskEvent → Prop}
    {replState : ReplicationState} {events : List TaskEvent}
    (reaches : Reaches ReplicaTask.step allowed
      (start masterauth myPort replState) events task) :
    Replied (handshake masterauth myPort) (TaskEvent.received events) task := by
  generalize begins : start masterauth myPort replState = first at reaches
  induction reaches with
  | refl =>
      subst begins
      exact .sending [] rfl rfl rfl rfl
  | snoc _ _ taken ih =>
      rw [TaskEvent.received_snoc]
      exact ih.step taken

end Progress

end ReplicaTask

end RustiCache
