import RustiCache.FrameDecoders

/-!
# How far a stream of frames has arrived

The first bytes of a stream of frames are some complete frames and the beginning
of another.  A reader that waits for more data has taken out exactly the
complete ones.
-/

namespace RustiCache

namespace FrameDecoder

variable {α V E : Type} {decoder : FrameDecoder α V E}

/-- The frames that are complete within the first bytes of their stream. -/
def arrived : List (List α × V) → Nat → List (List α × V)
  | [], _ => []
  | frame :: frames, count =>
      if frame.1.length ≤ count then
        frame :: arrived frames (count - frame.1.length)
      else
        []

/-- How many of the first bytes belong to a frame that is not complete. -/
def unfinished (frames : List (List α × V)) (count : Nat) : Nat :=
  count - (stream (arrived frames count)).length

theorem arrived_append {first : List (List α × V)}
    (rest : List (List α × V)) {count : Nat}
    (enough : (stream first).length ≤ count) :
    arrived (first ++ rest) count =
      first ++ arrived rest (count - (stream first).length) := by
  induction first generalizing count with
  | nil => simp
  | cons frame first ih =>
      obtain ⟨bytes, value⟩ := frame
      rw [stream_cons, List.length_append] at enough
      rw [List.cons_append, arrived, if_pos (by simp only; omega),
        ih (by simp only; omega), stream_cons, List.length_append,
        List.cons_append, Nat.sub_sub]

/-- What has arrived stays when more bytes come. -/
theorem arrived_mono (frames : List (List α × V)) {count more : Nat}
    (order : count ≤ more) : arrived frames count <+: arrived frames more := by
  induction frames generalizing count more with
  | nil => exact List.prefix_rfl
  | cons frame frames ih =>
      rw [arrived]
      split
      next short =>
        rw [arrived, if_pos (Nat.le_trans short order)]
        exact (List.prefix_cons_inj frame).mpr
          (ih (Nat.sub_le_sub_right order _))
      next => exact List.nil_prefix

/-- Frames whose bytes are all there have arrived. -/
theorem mem_arrived {frames handled : List (List α × V)} {count : Nat}
    (front : handled <+: frames) (enough : (stream handled).length ≤ count)
    {frame : List α × V} (member : frame ∈ handled) :
    frame ∈ arrived frames count := by
  obtain ⟨rest, rfl⟩ := front
  rw [arrived_append rest enough]
  exact List.mem_append_left _ member

namespace InStep

variable {frames handled : List (List α × V)} {buffer unread : List α}

/-- A reader that needs more data has handled all frames that have arrived. -/
theorem arrived_of_incomplete (inStep : InStep frames handled buffer unread)
    (accepted : ∀ frame ∈ frames, decoder.Accepts frame.1 frame.2)
    (more : decoder.attempt buffer = .incomplete) :
    arrived frames ((stream handled).length + buffer.length) = handled := by
  obtain ⟨remaining, rfl, pending⟩ := inStep
  rw [arrived_append remaining (Nat.le_add_right _ _), Nat.add_sub_cancel_left]
  suffices none : arrived remaining buffer.length = [] by
    rw [none, List.append_nil]
  cases remaining with
  | nil => rfl
  | cons frame others =>
      obtain ⟨bytes, value⟩ := frame
      rw [arrived, if_neg]
      intro short
      -- The buffer would begin with the whole frame.
      have front : bytes <+: buffer := by
        rw [stream_cons] at pending
        exact List.prefix_of_prefix_length_le ⟨stream others, rfl⟩
          ⟨unread, pending⟩ short
      obtain ⟨tail, rfl⟩ := front
      have whole : decoder.Accepts bytes value :=
        accepted (bytes, value) (by simp)
      rw [whole.attempt_append tail] at more
      cases more

/-- What such a reader has buffered is the beginning of the next frame. -/
theorem unfinished_of_incomplete (inStep : InStep frames handled buffer unread)
    (accepted : ∀ frame ∈ frames, decoder.Accepts frame.1 frame.2)
    (more : decoder.attempt buffer = .incomplete) :
    unfinished frames ((stream handled).length + buffer.length) =
      buffer.length := by
  rw [unfinished, inStep.arrived_of_incomplete accepted more,
    Nat.add_sub_cancel_left]

end InStep

end FrameDecoder

end RustiCache
