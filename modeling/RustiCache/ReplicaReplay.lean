import RustiCache.ActionRuns
import RustiCache.ReplicaStream

/-!
# Replaying the replication stream

However the master's frames are cut into chunks, the replica handles each of
them once and in order.  The invariant relates the frames handled so far to the
commands executed, to the acknowledgements sent and to the number of bytes
published, and is kept by every event that does not end the connection.
-/

namespace RustiCache

open FrameDecoder (stream InStep)

namespace StreamEvent

variable {hasher : String → UInt64}

def chunk? : StreamEvent hasher → Option Bytes
  | read chunk => some chunk
  | _ => none

/-- The chunks delivered by a sequence of events. -/
def reads (events : List (StreamEvent hasher)) : List Bytes :=
  events.filterMap chunk?

theorem reads_snoc (events : List (StreamEvent hasher))
    (event : StreamEvent hasher) :
    (reads (events ++ [event])).flatten =
      (reads events).flatten ++ event.chunk?.getD [] := by
  rw [reads, List.filterMap_append, List.flatten_append, ← reads]
  cases found : event.chunk? with
  | none => simp [found]
  | some chunk => simp [found]

theorem reads_process (moments : List Moment) :
    reads (moments.map fun moment => (.process moment : StreamEvent hasher)) =
      [] := by
  induction moments with
  | nil => rfl
  | cons moment moments ih => exact ih

/-- The event is not the end of the stream, and other tasks leave the published
count to the stream. -/
def Sustains (state : ReplicaStream hasher) : StreamEvent hasher → Prop
  | process _ => True
  | read chunk => chunk ≠ []
  | fail => False
  | others server => server.replState.replicaBytesProcessed =
      state.server.replState.replicaBytesProcessed

end StreamEvent

namespace ReplicaStream

variable {hasher : String → UInt64} {frames : List (Bytes × Value)}

/-- The acknowledgement of an offset. -/
def ackValue (offset : Nat) : Value :=
  .bulkArray [asBytes "REPLCONF", asBytes "ACK", decimal offset]

theorem ackReply_eq (total : UInt64) :
    ackReply total = (ackValue total.toNat).serialize := by
  have three : decimal 3 = asBytes "3" := by decide
  have eight : decimal 8 = asBytes "8" := by decide
  have letters : (asBytes "REPLCONF").length = 8 := by decide
  have short : (asBytes "ACK").length = 3 := by decide
  simp only [ackReply, ackValue, Value.bulkArray, List.map_cons, List.map_nil,
    Value.serialize, Value.serializeAll, List.length_cons, List.length_nil,
    Nat.zero_add, Nat.reduceAdd, letters, short, three, eight]
  simp only [← List.append_assoc, List.append_nil]
  rfl

theorem accepts_ackValue {offset : Nat} (fits : offset < 2 ^ 64) :
    Value.decoder.Accepts (ackValue offset).serialize (ackValue offset) := by
  have digits : (decimal offset).length ≤ 20 :=
    length_decimal_le 19 (by omega)
  apply Value.accepts_bulkArray
  · simp [Value.valueSize]
  · simp only [List.forall_mem_cons, List.not_mem_nil, false_implies,
      implies_true, and_true]
    exact ⟨by decide, by decide, by omega⟩

/-- The acknowledgements due for a list of frames that starts at an offset: for
each request the offset of its end. -/
def acks (offset : Nat) : List (Bytes × Value) → List Bytes
  | [] => []
  | frame :: frames =>
      let reached := offset + frame.1.length
      if Command.requestsAck frame.2 then
        (ackValue reached).serialize :: acks reached frames
      else
        acks reached frames

theorem acks_snoc (offset : Nat) (frames : List (Bytes × Value))
    (frame : Bytes × Value) :
    acks offset (frames ++ [frame]) =
      acks offset frames ++
        if Command.requestsAck frame.2 then
          [(ackValue (offset + (stream (frames ++ [frame])).length)).serialize]
        else
          [] := by
  induction frames generalizing offset with
  | nil =>
      simp only [List.nil_append, acks, stream, List.flatMap_cons,
        List.flatMap_nil, List.append_nil]
  | cons first frames ih =>
      have reached : offset + first.1.length +
          (stream (frames ++ [frame])).length =
          offset + (stream (first :: frames ++ [frame])).length := by
        simp only [stream, List.cons_append, List.flatMap_cons,
          List.length_append]
        omega
      simp only [List.cons_append, acks, ih, reached]
      split
      · rfl
      · rfl

/-- The replica has replayed the frames it has handled. -/
structure Replayed (frames : List (Bytes × Value)) (unread : Bytes)
    (state : ReplicaStream hasher) : Prop where
  running : state.phase ≠ .stopped
  inStep : InStep frames state.handled state.buffer unread
  settled : state.phase = .reading →
    Value.attempt state.buffer = .incomplete
  counted : state.totalBytesProcessed =
    UInt64.ofNat (stream state.handled).length
  published : state.server.replState.replicaBytesProcessed =
    state.totalBytesProcessed
  executed : state.executed =
    state.handled.filterMap fun frame => Command.executable frame.2
  acknowledged : state.replies = acks 0 state.handled

theorem replayed_start {server : ServerState hasher} {leftover unread : Bytes}
    (fresh : server.replState.replicaBytesProcessed = 0)
    (whole : leftover ++ unread = stream frames) :
    Replayed frames unread (start server leftover) where
  running := nofun
  inStep := InStep.init whole
  settled := nofun
  counted := rfl
  published := fresh
  executed := rfl
  acknowledged := rfl

/-- A round of the loop absorbs the next frame or goes back to reading. -/
theorem drain_cases {state : ReplicaStream hasher} {unread : Bytes}
    (accepted : ∀ frame ∈ frames, Value.decoder.Accepts frame.1 frame.2)
    (inStep : InStep frames state.handled state.buffer unread)
    (moment : Moment) :
    (∃ frame value others tail,
        frames = state.handled ++ (frame, value) :: others ∧
        state.buffer = frame ++ tail ∧
        InStep frames (state.handled ++ [(frame, value)]) tail unread ∧
        state.drain moment =
          { state with
            buffer := tail
            handled := state.handled ++ [(frame, value)] }.absorb moment
              frame.length value) ∨
      (Value.attempt state.buffer = .incomplete ∧
        state.drain moment = { state with phase := .reading }) := by
  rcases inStep.next accepted with
    ⟨frame, value, others, tail, first, front, nonempty, found, rest⟩ |
      ⟨more, -⟩
  · left
    refine ⟨frame, value, others, tail, first, front, rest, ?_⟩
    change Value.attempt state.buffer = _ at found
    rw [drain, if_neg nonempty, found]
    simp only [front, List.take_left, List.drop_left]
  · right
    refine ⟨more, ?_⟩
    change Value.attempt state.buffer = _ at more
    rw [drain, more]
    split <;> rfl

section Replay

variable
  (accepted : ∀ frame ∈ frames, Value.decoder.Accepts frame.1 frame.2)
  (bounded : (stream frames).length < 2 ^ 64)

include bounded in
theorem Replayed.absorb {state : ReplicaStream hasher} {unread tail : Bytes}
    {frame : Bytes} {value : Value}
    (replayed : Replayed frames unread state)
    (draining : state.phase = .draining)
    (rest : InStep frames (state.handled ++ [(frame, value)]) tail unread)
    (moment : Moment) :
    Replayed frames unread
      ({ state with
          buffer := tail
          handled := state.handled ++ [(frame, value)] }.absorb moment
        frame.length value) := by
  have lengths : (stream (state.handled ++ [(frame, value)])).length =
      (stream state.handled).length + frame.length := by
    simp
  have total : state.totalBytesProcessed + UInt64.ofNat frame.length =
      UInt64.ofNat (stream (state.handled ++ [(frame, value)])).length := by
    rw [replayed.counted, lengths, UInt64.ofNat_add]
  have small : (stream (state.handled ++ [(frame, value)])).length <
      2 ^ 64 := by
    have whole := rest.length_eq
    omega
  rw [absorb_eq]
  refine ⟨by simp [draining], rest, by simp [draining], total, rfl, ?_, ?_⟩
  · rw [List.filterMap_append, ← replayed.executed]
    cases found : Command.executable value <;> simp [found]
  · rw [acks_snoc, ← replayed.acknowledged, Nat.zero_add]
    dsimp only
    rw [ackReply_eq, total, UInt64.toNat_ofNat_of_lt' small]

include accepted bounded in
theorem Replayed.drain {state : ReplicaStream hasher} {unread : Bytes}
    (replayed : Replayed frames unread state)
    (draining : state.phase = .draining) (moment : Moment) :
    Replayed frames unread (state.drain moment) := by
  rcases drain_cases accepted replayed.inStep moment with
    ⟨frame, value, others, tail, -, -, rest, drained⟩ | ⟨more, drained⟩
  · rw [drained]
    exact replayed.absorb bounded draining rest moment
  · rw [drained]
    exact { replayed with running := nofun, settled := fun _ => more }

theorem Replayed.receive {state : ReplicaStream hasher} {chunk unread : Bytes}
    (replayed : Replayed frames (chunk ++ unread) state)
    (nonempty : chunk ≠ []) :
    Replayed frames unread (state.receive chunk) := by
  rw [ReplicaStream.receive, if_neg nonempty]
  exact { replayed with
    running := nofun
    inStep := replayed.inStep.receive
    settled := nofun }

include accepted bounded in
theorem replayed_step {state next : ReplicaStream hasher}
    {event : StreamEvent hasher} {unread : Bytes}
    (replayed : Replayed frames (event.chunk?.getD [] ++ unread) state)
    (sustains : event.Sustains state) (taken : state.step event = some next) :
    Replayed frames unread next := by
  cases transition_of_step taken with
  | process moment draining =>
      exact replayed.drain accepted bounded draining moment
  | read chunk => exact replayed.receive sustains
  | fail => exact sustains.elim
  | others server =>
      exact { replayed with published := sustains.trans replayed.published }

include accepted bounded in
theorem replayed_of_reaches {server : ServerState hasher}
    (fresh : server.replState.replicaBytesProcessed = 0) {leftover : Bytes}
    {events : List (StreamEvent hasher)} {state : ReplicaStream hasher}
    (reaches : Reaches step (fun state event => event.Sustains state)
      (start server leftover) events state)
    {unread : Bytes}
    (delivered : leftover ++ (StreamEvent.reads events).flatten ++ unread =
      stream frames) :
    Replayed frames unread state := by
  generalize begins : start server leftover = first at reaches
  induction reaches generalizing unread with
  | refl =>
      subst begins
      refine replayed_start fresh ?_
      simpa [StreamEvent.reads] using delivered
  | snoc before sustains taken ih =>
      rw [StreamEvent.reads_snoc, ← List.append_assoc, List.append_assoc]
        at delivered
      exact replayed_step accepted bounded (ih delivered) sustains taken

end Replay

end ReplicaStream

end RustiCache
