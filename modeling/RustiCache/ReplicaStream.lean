import RustiCache.CommandExecution
import RustiCache.RespDecoder

/-!
# The replication stream on a replica

After the handshake a replica reads the master's commands from its connection.
Its task drains the buffer frame by frame, executes the commands, counts the
bytes, and answers requests for an acknowledgement with the count.
-/

namespace RustiCache

inductive StreamPhase where
  | draining
  | reading
  | stopped
deriving DecidableEq

/-- The state of the replica's task and of the server it belongs to, with what
it has written to the master, the frames it has handled and the commands it has
executed. -/
structure ReplicaStream (hasher : String → UInt64) where
  server : ServerState hasher
  buffer : Bytes
  totalBytesProcessed : UInt64
  phase : StreamPhase
  replies : List Bytes
  handled : List (Bytes × Value)
  executed : List Command

inductive StreamEvent (hasher : String → UInt64) where
  | process (moment : Moment)
  | read (chunk : Bytes)
  | fail
  | others (server : ServerState hasher)

namespace Command

/-- Execute a command of the stream: with no raw bytes to propagate, no password
and no cluster. -/
def apply {hasher : String → UInt64} (moment : Moment)
    (server : ServerState hasher) (cmd : Command) : ServerState hasher :=
  { (cmd.execute moment { server with cluster := none } none none
      true).server with
    cluster := server.cluster }

/-- Without raw bytes nothing is propagated. -/
theorem perform_none {hasher : String → UInt64} (moment : Moment)
    (server : ServerState hasher) (isAuthenticated : Bool) (cmd : Command) :
    (cmd.perform moment server none isAuthenticated).server.replState =
        server.replState ∧
      (cmd.perform moment server none isAuthenticated).server.channels =
        server.channels := by
  cases cmd with
  | ping message => cases message <;> exact ⟨rfl, rfl⟩
  | set key value pxMs => simp [perform, propagate]
  | del names => simp [perform, propagate]
  | cluster subcommand =>
      rw [perform]
      split <;> exact ⟨rfl, rfl⟩
  | _ => exact ⟨rfl, rfl⟩

theorem apply_replState {hasher : String → UInt64} (moment : Moment)
    (server : ServerState hasher) (cmd : Command) :
    (cmd.apply moment server).replState = server.replState :=
  (perform_none moment { server with cluster := none } true cmd).1

theorem apply_channels {hasher : String → UInt64} (moment : Moment)
    (server : ServerState hasher) (cmd : Command) :
    (cmd.apply moment server).channels = server.channels :=
  (perform_none moment { server with cluster := none } true cmd).2

/-- The command of a frame, if the stream executes it. -/
def executable (value : Value) : Option Command :=
  match fromValue value with
  | .ok (.replConf _) => none
  | .ok cmd => some cmd
  | .error _ => none

/-- What a frame of the stream does to the server. -/
def replay {hasher : String → UInt64} (moment : Moment)
    (server : ServerState hasher) (value : Value) : ServerState hasher :=
  match executable value with
  | some cmd => cmd.apply moment server
  | none => server

/-- The arguments of `REPLCONF` ask for an acknowledgement. -/
def isGetAck : List String → Bool
  | [] => false
  | sub :: _ => toAsciiUppercase sub = "GETACK"

/-- The frame asks for an acknowledgement. -/
def requestsAck (value : Value) : Bool :=
  match fromValue value with
  | .ok (.replConf args) => isGetAck args
  | _ => false

end Command

namespace ReplicaStream

variable {hasher : String → UInt64}

def ackReply (totalBytesProcessed : UInt64) : Bytes :=
  let offsetStr := decimal totalBytesProcessed.toNat
  asBytes "*3\r\n$8\r\nREPLCONF\r\n$3\r\nACK\r\n$" ++
    decimal offsetStr.length ++ asBytes "\r\n" ++ offsetStr ++ asBytes "\r\n"

/-- Count the bytes of a frame, and publish the count. -/
def count (stream : ReplicaStream hasher) (consumed : Nat) :
    ReplicaStream hasher :=
  let total := stream.totalBytesProcessed + UInt64.ofNat consumed
  { stream with
    totalBytesProcessed := total
    server := { stream.server with
      replState := { stream.server.replState with
        replicaBytesProcessed := total } } }

/-- Handle a frame that has been cut off the buffer. -/
def absorb (moment : Moment) (stream : ReplicaStream hasher) (consumed : Nat)
    (value : Value) : ReplicaStream hasher :=
  match Command.fromValue value with
  | .ok (.replConf args) =>
      let counted := stream.count consumed
      if Command.isGetAck args then
        { counted with
          replies := counted.replies ++ [ackReply counted.totalBytesProcessed] }
      else
        counted
  | .ok cmd =>
      { stream with
        server := cmd.apply moment stream.server
        executed := stream.executed ++ [cmd] }.count consumed
  | .error _ => stream.count consumed

/-- Every frame is counted and published, whatever else it does. -/
theorem absorb_eq (moment : Moment) (stream : ReplicaStream hasher)
    (consumed : Nat) (value : Value) :
    let total := stream.totalBytesProcessed + UInt64.ofNat consumed
    stream.absorb moment consumed value =
      { stream with
        totalBytesProcessed := total
        server := { Command.replay moment stream.server value with
          replState := { stream.server.replState with
            replicaBytesProcessed := total } }
        replies := stream.replies ++
          if Command.requestsAck value then [ackReply total] else []
        executed := stream.executed ++ (Command.executable value).toList } := by
  simp only [absorb, Command.replay, Command.executable, Command.requestsAck]
  split
  next args found =>
    simp only [found]
    split
    · simp [count]
    · simp [count]
  next cmd notReplConf found =>
    have ordinary : ∀ args, cmd ≠ .replConf args := by
      rintro args rfl
      exact notReplConf args rfl
    cases cmd with
    | replConf args => exact absurd rfl (ordinary args)
    | _ => simp [count, found, Command.apply_replState]
  next reason found => simp [count, found]

/-- One round of the loop over the buffer. -/
def drain (moment : Moment) (stream : ReplicaStream hasher) :
    ReplicaStream hasher :=
  if stream.buffer = [] then
    { stream with phase := .reading }
  else
    match Value.attempt stream.buffer with
    | .complete value consumed =>
        { stream with
          buffer := stream.buffer.drop consumed
          handled := stream.handled ++
            [(stream.buffer.take consumed, value)] }.absorb moment consumed value
    | .incomplete => { stream with phase := .reading }
    | .malformed (.parseError _) =>
        { stream with buffer := stream.buffer.drop 1, phase := .reading }
    | .malformed .panic => { stream with phase := .stopped }

def receive (stream : ReplicaStream hasher) (chunk : Bytes) :
    ReplicaStream hasher :=
  if chunk = [] then
    { stream with phase := .stopped }
  else
    { stream with buffer := stream.buffer ++ chunk, phase := .draining }

def step (stream : ReplicaStream hasher) :
    StreamEvent hasher → Option (ReplicaStream hasher)
  | .process moment =>
      if stream.phase = .draining then
        some (stream.drain moment)
      else
        none
  | .read chunk =>
      if stream.phase = .reading then
        some (stream.receive chunk)
      else
        none
  | .fail =>
      if stream.phase = .stopped then
        none
      else
        some { stream with phase := .stopped }
  | .others server => some { stream with server := server }

/-- What a step can do, with the conditions under which it can happen. -/
inductive Transition (stream : ReplicaStream hasher) :
    StreamEvent hasher → ReplicaStream hasher → Prop where
  | process (moment : Moment) (draining : stream.phase = .draining) :
      Transition stream (.process moment) (stream.drain moment)
  | read (chunk : Bytes) (reading : stream.phase = .reading) :
      Transition stream (.read chunk) (stream.receive chunk)
  | fail (running : stream.phase ≠ .stopped) :
      Transition stream .fail { stream with phase := .stopped }
  | others (server : ServerState hasher) :
      Transition stream (.others server) { stream with server := server }

theorem transition_of_step {stream next : ReplicaStream hasher}
    {event : StreamEvent hasher} (taken : stream.step event = some next) :
    Transition stream event next := by
  cases event with
  | process moment =>
      obtain ⟨draining, drained⟩ := Option.ite_none_right_eq_some.mp taken
      cases drained
      exact .process moment draining
  | read chunk =>
      obtain ⟨reading, received⟩ := Option.ite_none_right_eq_some.mp taken
      cases received
      exact .read chunk reading
  | fail =>
      obtain ⟨running, failed⟩ := Option.ite_none_left_eq_some.mp taken
      cases failed
      exact .fail running
  | others server =>
      cases taken
      exact .others server

/-- The stream starts with what the handshake has left in the buffer. -/
def start (server : ServerState hasher) (leftover : Bytes) :
    ReplicaStream hasher where
  server := server
  buffer := leftover
  totalBytesProcessed := 0
  phase := .draining
  replies := []
  handled := []
  executed := []

end ReplicaStream

end RustiCache
