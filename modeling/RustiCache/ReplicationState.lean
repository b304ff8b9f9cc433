import RustiCache.ByteText
import Mathlib.Logic.Function.Basic

/-!
# Replication state

What a server knows about its role and its replicas.  Each connection owns an
unbounded channel for the bytes to replicate; the state holds the sending ends
of the registered ones.  A channel is the queue of what has been sent and not
yet received, or nothing once its receiving end is gone.
-/

namespace RustiCache

inductive ServerRole where
  | master
  | replica (masterHost : String) (masterPort : UInt16)
deriving DecidableEq

abbrev ChannelId := Nat

abbrev Channels := ChannelId → Option (List Bytes)

structure ReplicationState where
  role : ServerRole
  masterReplid : String
  masterReplOffset : UInt64
  replicaBytesProcessed : UInt64
  connectedReplicas : UInt64
  downstreamSenders : List ChannelId
deriving DecidableEq

namespace ReplicationState

def newMaster (replid : Option String) : ReplicationState where
  role := .master
  masterReplid := replid.getD "8371b4fb1155b71f4a04d3e1bc3e18c4a990aeeb"
  masterReplOffset := 0
  replicaBytesProcessed := 0
  connectedReplicas := 0
  downstreamSenders := []

def newReplica (masterHost : String) (masterPort : UInt16) :
    ReplicationState where
  role := .replica masterHost masterPort
  masterReplid := "?"
  masterReplOffset := 0
  replicaBytesProcessed := 0
  connectedReplicas := 0
  downstreamSenders := []

def isReplica (state : ReplicationState) : Bool :=
  match state.role with
  | .replica _ _ => true
  | .master => false

def getReplid (state : ReplicationState) : String :=
  state.masterReplid

def setReplid (state : ReplicationState) (id : String) : ReplicationState :=
  { state with masterReplid := id }

def infoReplication (state : ReplicationState) : String :=
  let replid := state.getReplid
  match state.role with
  | .master =>
      let offset := state.masterReplOffset
      let connected := state.connectedReplicas
      s!"# Replication\r\nrole:master\r\nconnected_slaves:{connected}\r\n" ++
      s!"master_replid:{replid}\r\nmaster_repl_offset:{offset}\r\n" ++
      "second_repl_offset:-1\r\nrepl_backlog_active:0\r\n"
  | .replica masterHost masterPort =>
      let offset := state.replicaBytesProcessed
      s!"# Replication\r\nrole:slave\r\nmaster_host:{masterHost}\r\n" ++
      s!"master_port:{masterPort}\r\nmaster_link_status:up\r\n" ++
      "master_last_io_seconds_ago:0\r\nmaster_sync_in_progress:0\r\n" ++
      s!"slave_repl_offset:{offset}\r\nslave_priority:100\r\n" ++
      s!"slave_read_only:1\r\nconnected_slaves:0\r\nmaster_replid:{replid}\r\n"

def registerDownstream (state : ReplicationState) (tx : ChannelId) :
    ReplicationState :=
  { state with
    downstreamSenders := state.downstreamSenders ++ [tx]
    connectedReplicas := state.connectedReplicas + 1 }

/-- Send to one channel, which fails when the receiving end is gone. -/
def send (channels : Channels) (tx : ChannelId) (rawResp : Bytes) :
    Option Channels :=
  (channels tx).map fun queue =>
    Function.update channels tx (some (queue ++ [rawResp]))

/-- Send to every channel in turn and keep those that took the bytes. -/
def retainSending (rawResp : Bytes) :
    List ChannelId → Channels → List ChannelId × Channels
  | [], channels => ([], channels)
  | tx :: senders, channels =>
      match send channels tx rawResp with
      | some sent =>
          let (kept, last) := retainSending rawResp senders sent
          (tx :: kept, last)
      | none => retainSending rawResp senders channels

/-- A propagation keeps the senders whose receiver is alive. -/
theorem retainSending_kept (rawResp : Bytes) (senders : List ChannelId)
    (channels : Channels) :
    (retainSending rawResp senders channels).1 =
      senders.filter fun tx => (channels tx).isSome := by
  induction senders generalizing channels with
  | nil => rfl
  | cons tx senders ih =>
      cases found : channels tx with
      | none =>
          have refused : send channels tx rawResp = none := by
            rw [send, found]
            rfl
          simp only [retainSending, refused, List.filter_cons, found]
          exact ih channels
      | some queue =>
          have sent : send channels tx rawResp = some
              (Function.update channels tx (some (queue ++ [rawResp]))) := by
            rw [send, found]
            rfl
          have alive : ∀ other, ((Function.update channels tx
              (some (queue ++ [rawResp]))) other).isSome =
                (channels other).isSome := by
            intro other
            by_cases same : other = tx
            · rw [same, Function.update_self, found]
              rfl
            · rw [Function.update_of_ne same]
          simp only [retainSending, sent, List.filter_cons, found, ih, alive]
          rfl

/-- A channel whose receiver is alive gets the bytes once for each of its
registrations, and stays registered. -/
theorem retainSending_alive {tx : ChannelId} (rawResp : Bytes)
    (senders : List ChannelId) {channels : Channels} {queue : List Bytes}
    (alive : channels tx = some queue) :
    (retainSending rawResp senders channels).2 tx =
        some (queue ++ List.replicate (senders.count tx) rawResp) ∧
      (retainSending rawResp senders channels).1.count tx =
        senders.count tx := by
  induction senders generalizing channels queue with
  | nil => simpa [retainSending] using alive
  | cons first senders ih =>
      by_cases same : first = tx
      · subst same
        have sent : send channels first rawResp = some
            (Function.update channels first (some (queue ++ [rawResp]))) := by
          rw [send, alive]
          rfl
        obtain ⟨received, kept⟩ := ih (Function.update_self first
          (some (queue ++ [rawResp])) channels)
        simp only [retainSending, sent, List.count_cons_self]
        refine ⟨?_, by rw [kept]⟩
        rw [received, List.replicate_succ, List.append_assoc]
        rfl
      · rw [List.count_cons_of_ne same]
        cases found : send channels first rawResp with
        | none => simpa [retainSending, found] using ih alive
        | some sent =>
            have unchanged : sent tx = some queue := by
              rw [send] at found
              obtain ⟨other, -, rfl⟩ := Option.map_eq_some_iff.mp found
              rw [Function.update_of_ne (Ne.symm same)]
              exact alive
            simpa [retainSending, found, List.count_cons_of_ne same] using
              ih unchanged

def propagateDownstream (state : ReplicationState) (channels : Channels)
    (rawResp : Bytes) : ReplicationState × Channels :=
  let (kept, last) := retainSending rawResp state.downstreamSenders channels
  ({ state with
      downstreamSenders := kept
      masterReplOffset := state.masterReplOffset + UInt64.ofNat rawResp.length },
    last)

end ReplicationState

def emptyRdbHex : String :=
  "524544495330303131fa0972656469732d76657205372e322e30fa0a7265" ++
  "6469732d62697473c040fa056374696d65c26d086265fa08757365642d6d" ++
  "656dc2b0c41000fa08616f662d62617365c000fff62278d2db30eb16"

def hexDigit (digit : Char) : Option Nat :=
  if '0' ≤ digit ∧ digit ≤ '9' then some (digit.toNat - 48)
  else if 'a' ≤ digit ∧ digit ≤ 'f' then some (digit.toNat - 87)
  else if 'A' ≤ digit ∧ digit ≤ 'F' then some (digit.toNat - 55)
  else none

/-- The bytes written as pairs of hexadecimal digits. -/
def hexBytes : List Char → Bytes
  | high :: low :: digits =>
      (match hexDigit high, hexDigit low with
        | some first, some second => UInt8.ofNat (16 * first + second)
        | _, _ => 0) :: hexBytes digits
  | _ => []

/-- The snapshot of an empty store. -/
def getEmptyRdbBytes : Bytes :=
  hexBytes emptyRdbHex.toList

end RustiCache
