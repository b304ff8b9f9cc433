import RustiCache.FrameDecoders

/-!
# Read loops

A read loop collects chunks in a buffer and takes frames off its front.  At a
malformed front it keeps a part of the buffer and waits for the next chunk, or
it ends.  Some values end it as well.  What it takes off depends on how the
data is cut into chunks only from the first malformed front on: before that it
takes off the frames that are found in the whole of the data.
-/

namespace RustiCache

/-- A loop over a growing buffer: which malformed fronts and which values end
it, and what it keeps of a buffer with another malformed front. -/
structure ReadLoop (α V E : Type) where
  decoder : FrameDecoder α V E
  fatal : E → Bool
  keep : List α → List α
  ends : V → Bool

namespace ReadLoop

variable {α V E : Type} (loop : ReadLoop α V E)

/-- The frames that the loop takes off a buffer and the chunks after it. -/
inductive Handles : List α → List (List α) → List (List α × V) → Prop
  | next {buffer : List α} {chunks : List (List α)} {value : V}
      {consumed : Nat} {frames : List (List α × V)}
      (found : loop.decoder.attempt buffer = .complete value consumed)
      (goesOn : loop.ends value = false)
      (rest : Handles (buffer.drop consumed) chunks frames) :
      Handles buffer chunks ((buffer.take consumed, value) :: frames)
  | last {buffer : List α} {chunks : List (List α)} {value : V}
      {consumed : Nat}
      (found : loop.decoder.attempt buffer = .complete value consumed)
      (ends : loop.ends value = true) :
      Handles buffer chunks [(buffer.take consumed, value)]
  | idle {buffer : List α}
      (more : loop.decoder.attempt buffer = .incomplete) :
      Handles buffer [] []
  | read {buffer chunk : List α} {chunks : List (List α)}
      {frames : List (List α × V)}
      (more : loop.decoder.attempt buffer = .incomplete)
      (rest : Handles (buffer ++ chunk) chunks frames) :
      Handles buffer (chunk :: chunks) frames
  | fail {buffer : List α} {chunks : List (List α)} {reason : E}
      (malformed : loop.decoder.attempt buffer = .malformed reason)
      (ended : loop.fatal reason = true) :
      Handles buffer chunks []
  | stay {buffer : List α} {reason : E}
      (malformed : loop.decoder.attempt buffer = .malformed reason)
      (survived : loop.fatal reason = false) :
      Handles buffer [] []
  | recover {buffer chunk : List α} {chunks : List (List α)} {reason : E}
      {frames : List (List α × V)}
      (malformed : loop.decoder.attempt buffer = .malformed reason)
      (survived : loop.fatal reason = false)
      (rest : Handles (loop.keep buffer ++ chunk) chunks frames) :
      Handles buffer (chunk :: chunks) frames

/-- The frames of a buffer are taken off up to a front that is not a frame. -/
theorem handles_of_fronts {chunks : List (List α)}
    (incomplete : ∀ buffer, loop.decoder.attempt buffer = .incomplete →
      ∃ frames, loop.Handles buffer chunks frames)
    (survived : ∀ buffer reason,
      loop.decoder.attempt buffer = .malformed reason →
        loop.fatal reason = false → ∃ frames, loop.Handles buffer chunks frames)
    (buffer : List α) : ∃ frames, loop.Handles buffer chunks frames := by
  induction size : buffer.length using Nat.strongRecOn generalizing buffer with
  | ind length shorter =>
      cases found : loop.decoder.attempt buffer with
      | incomplete => exact incomplete buffer found
      | malformed reason =>
          cases fate : loop.fatal reason with
          | true => exact ⟨[], .fail found fate⟩
          | false => exact survived buffer reason found fate
      | complete value consumed =>
          cases ends : loop.ends value with
          | true => exact ⟨_, .last found ends⟩
          | false =>
              have bounds := loop.decoder.consumed_bounds found
              have fewer : (buffer.drop consumed).length < length := by
                rw [List.length_drop]
                omega
              obtain ⟨frames, rest⟩ := shorter _ fewer _ rfl
              exact ⟨_, .next found ends rest⟩

/-- Every chunk is read and every drain ends. -/
theorem handles_total (chunks : List (List α)) (buffer : List α) :
    ∃ frames, loop.Handles buffer chunks frames := by
  induction chunks generalizing buffer with
  | nil =>
      apply loop.handles_of_fronts
      · exact fun buffer found => ⟨[], .idle found⟩
      · exact fun buffer reason found fate => ⟨[], .stay found fate⟩
  | cons chunk chunks ih =>
      apply loop.handles_of_fronts
      · intro buffer found
        obtain ⟨frames, rest⟩ := ih (buffer ++ chunk)
        exact ⟨frames, .read found rest⟩
      · intro buffer reason found fate
        obtain ⟨frames, rest⟩ := ih (loop.keep buffer ++ chunk)
        exact ⟨frames, .recover found fate rest⟩

/-- The frames at the front of the data, and what is left of it at the first
front that is not a frame.  Nothing is left once the loop has ended. -/
def decodeAt : Nat → List α → List (List α × V) × Option (List α)
  | 0, data => ([], some data)
  | fuel + 1, data =>
      match loop.decoder.attempt data with
      | .complete value consumed =>
          if loop.ends value then
            ([(data.take consumed, value)], none)
          else
            let others := decodeAt fuel (data.drop consumed)
            ((data.take consumed, value) :: others.1, others.2)
      | _ => ([], some data)

def decode (data : List α) : List (List α × V) × Option (List α) :=
  loop.decodeAt data.length data

theorem decodeAt_nil (fuel : Nat) : loop.decodeAt fuel [] = ([], some []) := by
  cases fuel with
  | zero => rfl
  | succ fuel => rw [decodeAt, loop.decoder.attempt_nil]

theorem decodeAt_eq_of_length_le {data : List α} {first second : Nat}
    (enough : data.length ≤ first) (enoughToo : data.length ≤ second) :
    loop.decodeAt first data = loop.decodeAt second data := by
  induction first generalizing second data with
  | zero =>
      rw [List.length_eq_zero_iff.mp (Nat.le_zero.mp enough), decodeAt_nil,
        decodeAt_nil]
  | succ first ih =>
      cases second with
      | zero =>
          rw [List.length_eq_zero_iff.mp (Nat.le_zero.mp enoughToo),
            decodeAt_nil, decodeAt_nil]
      | succ second =>
          rw [decodeAt, decodeAt]
          cases found : loop.decoder.attempt data with
          | incomplete => rfl
          | malformed reason => rfl
          | complete value consumed =>
              have bounds := loop.decoder.consumed_bounds found
              have same : loop.decodeAt first (data.drop consumed) =
                  loop.decodeAt second (data.drop consumed) :=
                ih (by rw [List.length_drop]; omega)
                  (by rw [List.length_drop]; omega)
              simp only [same]

section Decode

variable {loop} {data : List α} {value : V} {consumed : Nat}

theorem decode_next
    (found : loop.decoder.attempt data = .complete value consumed)
    (goesOn : loop.ends value = false) :
    loop.decode data =
      ((data.take consumed, value) :: (loop.decode (data.drop consumed)).1,
        (loop.decode (data.drop consumed)).2) := by
  have bounds := loop.decoder.consumed_bounds found
  have nonempty : 0 < data.length := by omega
  obtain ⟨fuel, size⟩ := Nat.exists_eq_add_one.mpr nonempty
  have rest : loop.decodeAt fuel (data.drop consumed) =
      loop.decode (data.drop consumed) :=
    loop.decodeAt_eq_of_length_le (by rw [List.length_drop]; omega) (Nat.le_refl _)
  rw [decode, size, decodeAt, found]
  simp only [goesOn, Bool.false_eq_true, if_false, rest]

theorem decode_last
    (found : loop.decoder.attempt data = .complete value consumed)
    (ends : loop.ends value = true) :
    loop.decode data = ([(data.take consumed, value)], none) := by
  have bounds := loop.decoder.consumed_bounds found
  have nonempty : 0 < data.length := by omega
  obtain ⟨fuel, size⟩ := Nat.exists_eq_add_one.mpr nonempty
  rw [decode, size, decodeAt, found]
  simp only [ends, if_true]

theorem decode_stuck
    (stuck : ∀ value consumed,
      loop.decoder.attempt data ≠ .complete value consumed) :
    loop.decode data = ([], some data) := by
  rw [decode]
  cases data.length with
  | zero => rfl
  | succ fuel =>
      rw [decodeAt]
      split
      next value consumed found => exact absurd found (stuck value consumed)
      next => rfl

end Decode

/-- Induction along the frames of the data. -/
@[elab_as_elim]
theorem decode_induction {motive : List α → Prop} (data : List α)
    (next : ∀ data value consumed,
      loop.decoder.attempt data = .complete value consumed →
        loop.ends value = false → motive (data.drop consumed) → motive data)
    (last : ∀ data value consumed,
      loop.decoder.attempt data = .complete value consumed →
        loop.ends value = true → motive data)
    (stuck : ∀ data, (∀ value consumed,
      loop.decoder.attempt data ≠ .complete value consumed) → motive data) :
    motive data := by
  induction size : data.length using Nat.strongRecOn generalizing data with
  | ind length shorter =>
      by_cases framed : ∃ value consumed,
          loop.decoder.attempt data = .complete value consumed
      · obtain ⟨value, consumed, found⟩ := framed
        have bounds := loop.decoder.consumed_bounds found
        have fewer : (data.drop consumed).length < length := by
          rw [List.length_drop]
          omega
        cases ends : loop.ends value with
        | true => exact last data value consumed found ends
        | false =>
            exact next data value consumed found ends (shorter _ fewer _ rfl)
      · exact stuck data fun value consumed found =>
          framed ⟨value, consumed, found⟩

/-- Up to the first front that is not a frame the loop takes off the frames of
the whole data, whatever the chunks. -/
theorem Handles.decoded {loop : ReadLoop α V E} {buffer : List α}
    {chunks : List (List α)} {frames : List (List α × V)}
    (handles : loop.Handles buffer chunks frames) :
    (loop.decode (buffer ++ chunks.flatten)).2 = none ∧
        frames = (loop.decode (buffer ++ chunks.flatten)).1 ∨
      ∃ front later others, loop.Handles front later others ∧
        (loop.decode (buffer ++ chunks.flatten)).2 =
          some (front ++ later.flatten) ∧
        later <:+ chunks ∧
        frames = (loop.decode (buffer ++ chunks.flatten)).1 ++ others := by
  have stuck : ∀ {buffer : List α} {chunks : List (List α)}
      {frames : List (List α × V)}, loop.Handles buffer chunks frames →
      (∀ value consumed, loop.decoder.attempt (buffer ++ chunks.flatten) ≠
        .complete value consumed) →
      ∃ front later others, loop.Handles front later others ∧
        (loop.decode (buffer ++ chunks.flatten)).2 =
          some (front ++ later.flatten) ∧
        later <:+ chunks ∧
        frames = (loop.decode (buffer ++ chunks.flatten)).1 ++ others := by
    intro buffer chunks frames handles noFrame
    rw [decode_stuck noFrame]
    exact ⟨buffer, chunks, frames, handles, rfl, List.suffix_rfl, rfl⟩
  induction handles with
  | @next buffer chunks value consumed frames found goesOn rest ih =>
      have bounds := loop.decoder.consumed_bounds found
      have whole := loop.decoder.complete_append chunks.flatten found
      rw [decode_next whole goesOn,
        List.drop_append_of_le_length bounds.2,
        List.take_append_of_le_length bounds.2]
      rcases ih with
        ⟨ended, same⟩ | ⟨front, later, others, handles, left, cut, same⟩
      · exact Or.inl ⟨ended, by rw [same]⟩
      · exact Or.inr ⟨front, later, others, handles, left, cut, by
          rw [same]
          rfl⟩
  | @last buffer chunks value consumed found ends =>
      have bounds := loop.decoder.consumed_bounds found
      have whole := loop.decoder.complete_append chunks.flatten found
      rw [decode_last whole ends, List.take_append_of_le_length bounds.2]
      exact Or.inl ⟨rfl, rfl⟩
  | idle more => exact Or.inr (stuck (.idle more) (by simp [more]))
  | @read buffer chunk chunks frames more rest ih =>
      rw [List.flatten_cons, ← List.append_assoc]
      rcases ih with ended | ⟨front, later, others, handles, left, cut, same⟩
      · exact Or.inl ended
      · exact Or.inr ⟨front, later, others, handles, left,
          cut.trans (List.suffix_cons chunk chunks), same⟩
  | @fail buffer chunks reason malformed ended =>
      have whole := loop.decoder.malformed_append chunks.flatten malformed
      refine Or.inr (stuck (.fail malformed ended) ?_)
      rw [whole]
      nofun
  | stay malformed survived =>
      exact Or.inr (stuck (.stay malformed survived) (by simp [malformed]))
  | @recover buffer chunk chunks reason frames malformed survived rest ih =>
      have whole := loop.decoder.malformed_append (chunk :: chunks).flatten
        malformed
      refine Or.inr (stuck (.recover malformed survived rest) ?_)
      rw [whole]
      nofun

end ReadLoop

end RustiCache
