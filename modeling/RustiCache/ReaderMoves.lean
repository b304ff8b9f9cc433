import RustiCache.ReadLoops

/-!
# Tasks that follow a read loop

A task that follows a read loop is seen as a reader: its buffer, the frames it
has taken off, and whether it drains its buffer, waits for a chunk or has ended.
What lies ahead of a reader after a move is what is left of what lay ahead of it
before.
-/

namespace RustiCache

namespace ReadLoop

inductive Phase where
  | draining
  | waiting
  | ended
deriving DecidableEq

/-- A task as far as the loop is concerned. -/
structure Reader (α V : Type) where
  buffer : List α
  handled : List (List α × V)
  phase : Phase

variable {α V E : Type} (loop : ReadLoop α V E)

/-- One round over the buffer. -/
def round (reader : Reader α V) : Reader α V :=
  match loop.decoder.attempt reader.buffer with
  | .complete value consumed =>
      ⟨reader.buffer.drop consumed,
        reader.handled ++ [(reader.buffer.take consumed, value)],
        if loop.ends value then .ended else .draining⟩
  | .incomplete => { reader with phase := .waiting }
  | .malformed reason =>
      if loop.fatal reason then
        { reader with phase := .ended }
      else
        { reader with buffer := loop.keep reader.buffer, phase := .waiting }

/-- The chunk arrives. -/
def Reader.receive (reader : Reader α V) (chunk : List α) : Reader α V :=
  { reader with buffer := reader.buffer ++ chunk, phase := .draining }

/-- What a step of the task does to the reader, with the chunk it reads. -/
inductive Moves : Reader α V → Option (List α) → Reader α V → Prop
  | still (reader : Reader α V) : Moves reader none reader
  | round {reader : Reader α V} (draining : reader.phase = .draining) :
      Moves reader none (loop.round reader)
  | wake {reader : Reader α V} (waiting : reader.phase = .waiting)
      (more : loop.decoder.attempt reader.buffer = .incomplete) :
      Moves reader none { reader with phase := .draining }
  | read {reader : Reader α V} (waiting : reader.phase = .waiting)
      (chunk : List α) : Moves reader (some chunk) (reader.receive chunk)

/-- The frames that the reader is still going to take off when it gets the
chunks. -/
def Ahead (reader : Reader α V) (chunks : List (List α))
    (frames : List (List α × V)) : Prop :=
  match reader.phase, chunks with
  | .draining, chunks => loop.Handles reader.buffer chunks frames
  | .waiting, [] => frames = []
  | .waiting, chunk :: chunks =>
      loop.Handles (reader.buffer ++ chunk) chunks frames
  | .ended, _ => frames = []

section Moves

variable {loop} {reader next : Reader α V} {chunks : List (List α)}
  {frames : List (List α × V)}

theorem handles_iff_of_incomplete {buffer : List α}
    (more : loop.decoder.attempt buffer = .incomplete)
    (handled : List (List α × V)) :
    loop.Handles buffer chunks frames ↔
      loop.Ahead ⟨buffer, handled, .waiting⟩ chunks frames := by
  unfold Ahead
  constructor
  · intro handles
    cases handles with
    | idle => rfl
    | read _ rest => exact rest
    | _ => simp_all
  · intro ahead
    cases chunks with
    | nil =>
        cases ahead
        exact .idle more
    | cons chunk chunks => exact .read more ahead

section Round

variable {buffer : List α} {value : V} {consumed : Nat} {reason : E}
  (handled : List (List α × V)) (phase : Phase)

theorem round_next
    (found : loop.decoder.attempt buffer = .complete value consumed)
    (goesOn : loop.ends value = false) :
    loop.round ⟨buffer, handled, phase⟩ =
      ⟨buffer.drop consumed, handled ++ [(buffer.take consumed, value)],
        .draining⟩ := by
  simp [round, found, goesOn]

theorem round_last
    (found : loop.decoder.attempt buffer = .complete value consumed)
    (ends : loop.ends value = true) :
    loop.round ⟨buffer, handled, phase⟩ =
      ⟨buffer.drop consumed, handled ++ [(buffer.take consumed, value)],
        .ended⟩ := by
  simp [round, found, ends]

theorem round_incomplete
    (more : loop.decoder.attempt buffer = .incomplete) :
    loop.round ⟨buffer, handled, phase⟩ = ⟨buffer, handled, .waiting⟩ := by
  simp [round, more]

theorem round_fatal
    (malformed : loop.decoder.attempt buffer = .malformed reason)
    (ended : loop.fatal reason = true) :
    loop.round ⟨buffer, handled, phase⟩ = ⟨buffer, handled, .ended⟩ := by
  simp [round, malformed, ended]

theorem round_survived
    (malformed : loop.decoder.attempt buffer = .malformed reason)
    (survived : loop.fatal reason = false) :
    loop.round ⟨buffer, handled, phase⟩ =
      ⟨loop.keep buffer, handled, .waiting⟩ := by
  simp [round, malformed, survived]

end Round

/-- What lies ahead after a round is what is left of what lay ahead before. -/
theorem ahead_of_round {buffer : List α} {handled : List (List α × V)}
    {phase : Phase}
    (ahead : loop.Ahead (loop.round ⟨buffer, handled, phase⟩) chunks frames) :
    ∃ taken, (loop.round ⟨buffer, handled, phase⟩).handled = handled ++ taken ∧
      loop.Handles buffer chunks (taken ++ frames) := by
  cases found : loop.decoder.attempt buffer with
  | complete value consumed =>
      cases ends : loop.ends value with
      | true =>
          rw [round_last _ _ found ends] at ahead ⊢
          cases ahead
          exact ⟨_, rfl, .last found ends⟩
      | false =>
          rw [round_next _ _ found ends] at ahead ⊢
          exact ⟨_, rfl, .next found ends ahead⟩
  | incomplete =>
      rw [round_incomplete _ _ found] at ahead ⊢
      exact ⟨[], (List.append_nil _).symm,
        (handles_iff_of_incomplete found handled).mpr ahead⟩
  | malformed reason =>
      cases fate : loop.fatal reason with
      | true =>
          rw [round_fatal _ _ found fate] at ahead ⊢
          cases ahead
          exact ⟨[], (List.append_nil _).symm, .fail found fate⟩
      | false =>
          rw [round_survived _ _ found fate] at ahead ⊢
          refine ⟨[], (List.append_nil _).symm, ?_⟩
          cases chunks with
          | nil =>
              cases ahead
              exact .stay found fate
          | cons chunk chunks => exact .recover found fate ahead

theorem Moves.ahead {chunk : Option (List α)}
    (moves : loop.Moves reader chunk next)
    (ahead : loop.Ahead next chunks frames) :
    ∃ taken, next.handled = reader.handled ++ taken ∧
      loop.Ahead reader (chunk.toList ++ chunks) (taken ++ frames) := by
  cases moves with
  | still => exact ⟨[], (List.append_nil _).symm, ahead⟩
  | round draining =>
      obtain ⟨buffer, handled, phase⟩ := reader
      cases draining
      exact ahead_of_round ahead
  | wake waiting more =>
      refine ⟨[], (List.append_nil _).symm, ?_⟩
      obtain ⟨buffer, handled, phase⟩ := reader
      cases waiting
      exact (handles_iff_of_incomplete more handled).mp ahead
  | read waiting chunk =>
      refine ⟨[], (List.append_nil _).symm, ?_⟩
      unfold Ahead
      rw [waiting]
      exact ahead

theorem round_buffer_length (keeps : ∀ buffer, loop.keep buffer <:+ buffer)
    (reader : Reader α V) :
    (loop.round reader).buffer.length ≤ reader.buffer.length := by
  unfold round
  split
  · rw [List.length_drop]
    exact Nat.sub_le _ _
  · exact Nat.le_refl _
  · split
    · exact Nat.le_refl _
    · exact (keeps reader.buffer).length_le

theorem Moves.buffer_length (keeps : ∀ buffer, loop.keep buffer <:+ buffer)
    {chunk : Option (List α)} (moves : loop.Moves reader chunk next) :
    next.buffer.length ≤ reader.buffer.length + (chunk.getD []).length := by
  cases moves with
  | still => exact Nat.le_add_right _ _
  | round => exact round_buffer_length keeps reader
  | wake => exact Nat.le_add_right _ _
  | read waiting chunk =>
      rw [Reader.receive, List.length_append]
      exact Nat.le_refl _

end Moves

end ReadLoop

end RustiCache
