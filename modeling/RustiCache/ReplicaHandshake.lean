import RustiCache.ReplicationState
import RustiCache.RespParser

/-!
# The handshake of a replica

A replica sends its commands to the master one by one and reads the reply to
each before it sends the next.  Three readers share one buffer: one for a line,
one for the resynchronization line, and one for the snapshot, whose payload is
delimited by its length alone.
-/

namespace RustiCache

inductive HandshakeCommand where
  | ping
  | auth (pass : String)
  | listeningPort (myPort : UInt16)
  | capa
  | psync
deriving DecidableEq

namespace HandshakeCommand

/-- The bytes that the replica writes for a command. -/
def bytes : HandshakeCommand → Bytes
  | ping => asBytes "*1\r\n$4\r\nPING\r\n"
  | auth pass =>
      asBytes "*2\r\n$4\r\nAUTH\r\n$" ++ decimal (asBytes pass).length ++
        asBytes "\r\n" ++ asBytes pass ++ asBytes "\r\n"
  | listeningPort myPort =>
      let portStr := decimal myPort.toNat
      asBytes "*3\r\n$8\r\nREPLCONF\r\n$14\r\nlistening-port\r\n$" ++
        decimal portStr.length ++ asBytes "\r\n" ++ portStr ++ asBytes "\r\n"
  | capa =>
      asBytes ("*5\r\n$8\r\nREPLCONF\r\n$4\r\ncapa\r\n$3\r\neof\r\n" ++
        "$4\r\ncapa\r\n$6\r\npsync2\r\n")
  | psync => asBytes "*3\r\n$5\r\nPSYNC\r\n$1\r\n?\r\n$2\r\n-1\r\n"

/-- The commands of the handshake, in order. -/
def handshake (masterauth : Option String) (myPort : UInt16) :
    List HandshakeCommand :=
  ping :: ((masterauth.map auth).toList ++ [listeningPort myPort, capa, psync])

end HandshakeCommand

/-- Where the replica's task is: about to send a command, waiting for its reply,
in the snapshot, at the start of the stream, or given up. -/
inductive HandshakeStage where
  | sending (cmd : HandshakeCommand) (later : List HandshakeCommand)
  | awaiting (cmd : HandshakeCommand) (later : List HandshakeCommand)
  | rdbHeader
  | rdbPayload (rdbLen : Nat)
  | streaming
  | failed (reason : String)
deriving DecidableEq

/-- The replica's task, with the bytes it has read for each command it has
sent. -/
structure ReplicaTask where
  stage : HandshakeStage
  buffer : Bytes
  replState : ReplicationState
  reads : List (Bytes × Bytes)

namespace ReplicaTask

/-- Credit bytes to the command sent last. -/
def credit (consumed : Bytes) (reads : List (Bytes × Bytes)) :
    List (Bytes × Bytes) :=
  match reads.getLast? with
  | some (cmd, earlier) => reads.dropLast ++ [(cmd, earlier ++ consumed)]
  | none => []

/-- Take bytes off the buffer. -/
def consume (task : ReplicaTask) (count : Nat) : ReplicaTask :=
  { task with
    buffer := task.buffer.drop count
    reads := credit (task.buffer.take count) task.reads }

/-- After the reply to a command comes the next command, or the snapshot. -/
def proceed (later : List HandshakeCommand) : HandshakeStage :=
  match later with
  | cmd :: others => .sending cmd others
  | [] => .rdbHeader

/-- The wait for a line ends when the buffer holds one. -/
def readSimpleResponse (task : ReplicaTask) (later : List HandshakeCommand) :
    Option ReplicaTask :=
  (Value.getLine task.buffer).map fun (_, consumed) =>
    { task.consume consumed with stage := proceed later }

def readFullresyncResponse (task : ReplicaTask)
    (later : List HandshakeCommand) : Option ReplicaTask :=
  (Value.getLine task.buffer).map fun (_, consumed) =>
    let line := task.buffer.take consumed
    let rest := task.consume consumed
    match fromUtf8 line with
    | .error invalid => { rest with stage := .failed invalid.message }
    | .ok text =>
        if "+FULLRESYNC".toList.isPrefixOf text.toList then
          let parts := splitWhitespace (trim text)
          let replState :=
            if 3 ≤ parts.length then task.replState.setReplid (parts.getD 1 "")
            else task.replState
          { rest with replState := replState, stage := proceed later }
        else
          { rest with
            stage := .failed ("Expected +FULLRESYNC, got: " ++ trim text) }

/-- The header of the snapshot: a dollar sign and the length. -/
def readRdbHeader (task : ReplicaTask) : Option ReplicaTask :=
  if task.buffer.head? = some 36 then
    (Value.getLine task.buffer).map fun (line, consumed) =>
      let rest := task.consume consumed
      match fromUtf8 (line.drop 1) with
      | .error invalid => { rest with stage := .failed invalid.message }
      | .ok lenStr =>
          match usize.parse (asBytes lenStr) with
          | .error _ => { rest with stage := .failed "Invalid RDB length" }
          | .ok rdbLen => { rest with stage := .rdbPayload rdbLen.toNat }
  else
    none

def readRdbPayload (task : ReplicaTask) (rdbLen : Nat) : Option ReplicaTask :=
  if task.buffer.length < rdbLen then
    none
  else
    some { task.consume rdbLen with stage := .streaming }

/-- Go on with what is in the buffer, unless more is needed. -/
def advance (task : ReplicaTask) : Option ReplicaTask :=
  match task.stage with
  | .awaiting .psync later => task.readFullresyncResponse later
  | .awaiting _ later => task.readSimpleResponse later
  | .rdbHeader => task.readRdbHeader
  | .rdbPayload rdbLen => task.readRdbPayload rdbLen
  | _ => none

/-- Send the next command. -/
def send (task : ReplicaTask) : Option (Bytes × ReplicaTask) :=
  match task.stage with
  | .sending cmd later =>
      some (cmd.bytes,
        { task with
          stage := .awaiting cmd later
          reads := task.reads ++ [(cmd.bytes, [])] })
  | _ => none

/-- What the end of the connection is reported as. -/
def eofReason : HandshakeStage → Option String
  | .awaiting .psync _ => some "Unexpected EOF reading FULLRESYNC"
  | .awaiting _ _ => some "Unexpected EOF from master"
  | .rdbHeader => some "EOF before RDB header"
  | .rdbPayload _ => some "EOF while reading RDB payload"
  | _ => none

/-- The socket is only read when the buffer does not suffice. -/
def receive (task : ReplicaTask) (chunk : Bytes) : Option ReplicaTask :=
  match eofReason task.stage, task.advance with
  | some reason, none =>
      if chunk = [] then
        some { task with stage := .failed reason }
      else
        some { task with buffer := task.buffer ++ chunk }
  | _, _ => none

/-- The task after it has connected. -/
def start (masterauth : Option String) (myPort : UInt16)
    (replState : ReplicationState) : ReplicaTask where
  stage := proceed (HandshakeCommand.handshake masterauth myPort)
  buffer := []
  replState := replState
  reads := []

end ReplicaTask

end RustiCache
