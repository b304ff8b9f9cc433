import Mathlib.Data.List.Basic

/-!
# Decoding frames from a growing buffer

A stream of frames arrives in arbitrary pieces and is collected in a buffer.
A decoder inspects the front of the buffer: it recognizes a complete frame,
finds the data incomplete, or finds it malformed.  The two laws required of a
decoder say that neither a recognized frame nor a malformation is revised when
more data arrives.  From them follows what every read loop relies on: while
the buffer and the unread data together consist of accepted frames, the decoder
either cuts off exactly the next frame or asks for more data, and it asks for
more data only inside a frame.
-/

namespace RustiCache

/-- What a decoder finds at the front of a buffer. -/
inductive Attempt (V E : Type)
  | complete (value : V) (consumed : Nat)
  | incomplete
  | malformed (reason : E)
  deriving DecidableEq

/-- A decoder whose answers survive the arrival of more data. -/
structure FrameDecoder (α V E : Type) where
  attempt : List α → Attempt V E
  attempt_nil : attempt [] = .incomplete
  consumed_bounds : ∀ {buffer value consumed},
    attempt buffer = .complete value consumed →
      0 < consumed ∧ consumed ≤ buffer.length
  complete_append : ∀ {buffer value consumed} (extra : List α),
    attempt buffer = .complete value consumed →
      attempt (buffer ++ extra) = .complete value consumed
  malformed_append : ∀ {buffer reason} (extra : List α),
    attempt buffer = .malformed reason →
      attempt (buffer ++ extra) = .malformed reason

namespace FrameDecoder

variable {α V E : Type} (decoder : FrameDecoder α V E)

/-- The decoder recognizes the whole of `frame` as one value. -/
def Accepts (frame : List α) (value : V) : Prop :=
  decoder.attempt frame = .complete value frame.length

instance [DecidableEq V] [DecidableEq E] (frame : List α) (value : V) :
    Decidable (decoder.Accepts frame value) :=
  inferInstanceAs (Decidable (_ = _))

/-- The bytes of a list of frames. -/
def stream (frames : List (List α × V)) : List α :=
  frames.flatMap Prod.fst

@[simp]
theorem stream_nil : stream ([] : List (List α × V)) = [] :=
  rfl

@[simp]
theorem stream_cons (frame : List α) (value : V)
    (frames : List (List α × V)) :
    stream ((frame, value) :: frames) = frame ++ stream frames :=
  rfl

@[simp]
theorem stream_append (first second : List (List α × V)) :
    stream (first ++ second) = stream first ++ stream second :=
  List.flatMap_append

variable {decoder}

/-- A frame found in an initial segment is found in the whole. -/
theorem complete_of_take {data : List α} {received consumed : Nat} {value : V}
    (found : decoder.attempt (data.take received) = .complete value consumed) :
    decoder.attempt data = .complete value consumed := by
  have whole := decoder.complete_append (data.drop received) found
  rwa [List.take_append_drop] at whole

theorem malformed_of_take {data : List α} {received : Nat} {reason : E}
    (malformed : decoder.attempt (data.take received) = .malformed reason) :
    decoder.attempt data = .malformed reason := by
  have whole := decoder.malformed_append (data.drop received) malformed
  rwa [List.take_append_drop] at whole

theorem Accepts.ne_nil {frame : List α} {value : V}
    (accepted : decoder.Accepts frame value) : frame ≠ [] := by
  rintro rfl
  have bounds := decoder.consumed_bounds accepted
  simp at bounds

/-- A frame accepted on its own is recognized in front of any other data. -/
theorem Accepts.attempt_append {frame : List α} {value : V}
    (accepted : decoder.Accepts frame value) (extra : List α) :
    decoder.attempt (frame ++ extra) = .complete value frame.length :=
  decoder.complete_append extra accepted

/-- A proper initial segment of an accepted frame is incomplete. -/
theorem Accepts.attempt_front {front back : List α} {value : V}
    (accepted : decoder.Accepts (front ++ back) value) (more : back ≠ []) :
    decoder.attempt front = .incomplete := by
  cases found : decoder.attempt front with
  | incomplete => rfl
  | complete other consumed =>
      have bounds := decoder.consumed_bounds found
      have whole := decoder.complete_append back found
      rw [accepted] at whole
      simp only [Attempt.complete.injEq, List.length_append] at whole
      have : back.length ≠ 0 := by simpa using more
      omega
  | malformed reason =>
      have whole := decoder.malformed_append back found
      rw [accepted] at whole
      cases whole

/-- The possible findings while the buffer and the unread data together are a
stream of accepted frames. -/
theorem attempt_stream {frames : List (List α × V)} {buffer unread : List α}
    (accepted : ∀ frame ∈ frames, decoder.Accepts frame.1 frame.2)
    (pending : buffer ++ unread = stream frames) :
    (∃ frame value others tail, frames = (frame, value) :: others ∧
        buffer = frame ++ tail ∧
        decoder.attempt buffer = .complete value frame.length ∧
        tail ++ unread = stream others) ∨
      (decoder.attempt buffer = .incomplete ∧
        (unread = [] → buffer = [] ∧ frames = [])) := by
  cases frames with
  | nil =>
      right
      obtain ⟨rfl, rfl⟩ := List.append_eq_nil_iff.mp pending
      exact ⟨decoder.attempt_nil, fun _ => ⟨rfl, rfl⟩⟩
  | cons head others =>
      obtain ⟨frame, value⟩ := head
      have headAccepted : decoder.Accepts frame value :=
        accepted (frame, value) (by simp)
      rw [stream_cons] at pending
      rcases List.append_eq_append_iff.mp pending with
        ⟨back, whole, unreadEq⟩ | ⟨tail, bufferEq, rest⟩
      · -- The buffer ends inside the first frame, possibly at its end.
        by_cases finished : back = []
        · subst finished
          rw [List.append_nil] at whole
          left
          refine ⟨frame, value, others, [], rfl, by simp [whole], ?_, ?_⟩
          · rw [← whole]
            exact headAccepted
          · simpa using unreadEq
        · right
          rw [whole] at headAccepted
          refine ⟨headAccepted.attempt_front finished, ?_⟩
          intro exhausted
          rw [exhausted] at unreadEq
          exact absurd (List.append_eq_nil_iff.mp unreadEq.symm).1 finished
      · left
        refine ⟨frame, value, others, tail, rfl, bufferEq, ?_, rest.symm⟩
        rw [bufferEq]
        exact headAccepted.attempt_append tail

/-- What has been handled, what is buffered and what is unread make up the
frames. -/
def InStep (frames handled : List (List α × V)) (buffer unread : List α) :
    Prop :=
  ∃ remaining, frames = handled ++ remaining ∧
    buffer ++ unread = stream remaining

namespace InStep

variable {frames handled : List (List α × V)} {buffer unread : List α}

theorem init {first rest : List α} (whole : first ++ rest = stream frames) :
    InStep frames [] first rest :=
  ⟨frames, rfl, whole⟩

theorem receive {chunk : List α}
    (inStep : InStep frames handled buffer (chunk ++ unread)) :
    InStep frames handled (buffer ++ chunk) unread := by
  obtain ⟨remaining, split, pending⟩ := inStep
  exact ⟨remaining, split, by rw [List.append_assoc, pending]⟩

theorem length_eq (inStep : InStep frames handled buffer unread) :
    (stream handled).length + buffer.length + unread.length =
      (stream frames).length := by
  obtain ⟨remaining, split, pending⟩ := inStep
  have lengths := congrArg List.length pending
  rw [List.length_append] at lengths
  rw [split, stream_append, List.length_append]
  omega

/-- The decoder finds the next frame or asks for more data. -/
theorem next (inStep : InStep frames handled buffer unread)
    (accepted : ∀ frame ∈ frames, decoder.Accepts frame.1 frame.2) :
    (∃ frame value others tail,
        frames = handled ++ (frame, value) :: others ∧
        buffer = frame ++ tail ∧ buffer ≠ [] ∧
        decoder.attempt buffer = .complete value frame.length ∧
        InStep frames (handled ++ [(frame, value)]) tail unread) ∨
      (decoder.attempt buffer = .incomplete ∧
        (unread = [] → buffer = [] ∧ handled = frames)) := by
  obtain ⟨remaining, split, pending⟩ := inStep
  have remainingAccepted : ∀ frame ∈ remaining,
      decoder.Accepts frame.1 frame.2 := by
    intro frame member
    exact accepted frame (by rw [split]; exact List.mem_append_right _ member)
  rcases attempt_stream remainingAccepted pending with
    ⟨frame, value, others, tail, first, front, found, rest⟩ | ⟨more, last⟩
  · left
    have frameAccepted : decoder.Accepts frame value :=
      remainingAccepted (frame, value) (by rw [first]; simp)
    have nonempty : buffer ≠ [] := by
      rw [front]
      intro empty
      exact frameAccepted.ne_nil (List.append_eq_nil_iff.mp empty).1
    refine ⟨frame, value, others, tail, by rw [split, first], front, nonempty,
      found, others, ?_, rest⟩
    rw [split, first, List.append_assoc]
    rfl
  · right
    refine ⟨more, fun exhausted => ?_⟩
    obtain ⟨empty, finished⟩ := last exhausted
    exact ⟨empty, by rw [split, finished, List.append_nil]⟩

end InStep

end FrameDecoder

end RustiCache
