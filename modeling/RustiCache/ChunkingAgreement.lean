import RustiCache.ReadLoops

/-!
# Chunks and commands

Some of the frames that a read loop takes off are commands.  Two ways to cut the
same data into chunks give the same commands unless one of them finds a command
behind the first front of the whole data that is not a frame.
-/

namespace RustiCache

namespace ReadLoop

variable {α V E C : Type} {loop : ReadLoop α V E}

/-- A way to cut data into a buffer and chunks. -/
structure Cut (data buffer : List α) (chunks : List (List α)) : Prop where
  whole : buffer ++ chunks.flatten = data
  nonempty : ∀ chunk ∈ chunks, chunk ≠ []

theorem length_le_flatten {chunks : List (List α)}
    (nonempty : ∀ chunk ∈ chunks, chunk ≠ []) :
    chunks.length ≤ chunks.flatten.length := by
  induction chunks with
  | nil => exact Nat.le_refl 0
  | cons chunk chunks ih =>
      rw [List.forall_mem_cons] at nonempty
      have positive := List.length_pos_of_ne_nil nonempty.1
      have others := ih nonempty.2
      rw [List.flatten_cons, List.length_append, List.length_cons]
      omega

/-- The commands among the values of frames. -/
def commands (command : V → Option C) (frames : List (List α × V)) : List C :=
  frames.filterMap fun frame => command frame.2

section Commands

variable {command : V → Option C}

theorem commands_append (first second : List (List α × V)) :
    commands command (first ++ second) =
      commands command first ++ commands command second :=
  List.filterMap_append

theorem commands_singleton (frame : List α × V) :
    commands command [frame] = (command frame.2).toList := by
  rw [commands]
  cases found : command frame.2 <;> simp [found]

theorem commands_eq_nil {frames : List (List α × V)} :
    commands command frames = [] ↔ ∀ frame ∈ frames, command frame.2 = none :=
  List.filterMap_eq_nil_iff

end Commands

section Whole

variable {data rest : List α}

/-- What is left of the data has no frame at its front. -/
theorem decode_rest (left : (loop.decode data).2 = some rest) :
    data = FrameDecoder.stream (loop.decode data).1 ++ rest ∧
      ∀ value consumed,
        loop.decoder.attempt rest ≠ .complete value consumed := by
  induction data using loop.decode_induction with
  | next data value consumed found goesOn ih =>
      rw [decode_next found goesOn] at left ⊢
      obtain ⟨layout, stuck⟩ := ih left
      refine ⟨?_, stuck⟩
      rw [FrameDecoder.stream_cons, List.append_assoc, ← layout,
        List.take_append_drop]
  | last data value consumed found ends =>
      rw [decode_last found ends] at left
      cases left
  | stuck data noFrame =>
      rw [decode_stuck noFrame] at left ⊢
      cases left
      exact ⟨rfl, noFrame⟩

/-- Data that is there at once is decoded up to its first malformed front. -/
theorem handles_decode (loop : ReadLoop α V E) (data : List α) :
    loop.Handles data [] (loop.decode data).1 := by
  induction data using loop.decode_induction with
  | next data value consumed found goesOn ih =>
      rw [decode_next found goesOn]
      exact .next found goesOn ih
  | last data value consumed found ends =>
      rw [decode_last found ends]
      exact .last found ends
  | stuck data noFrame =>
      rw [decode_stuck noFrame]
      cases found : loop.decoder.attempt data with
      | complete value consumed => exact absurd found (noFrame value consumed)
      | incomplete => exact .idle found
      | malformed reason =>
          cases fate : loop.fatal reason with
          | true => exact .fail found fate
          | false => exact .stay found fate

/-- The data in one chunk, or in none if there is no data. -/
theorem exists_cut_decode (loop : ReadLoop α V E) (data : List α) :
    ∃ chunks, Cut data [] chunks ∧
      loop.Handles [] chunks (loop.decode data).1 := by
  cases data with
  | nil => exact ⟨[], ⟨rfl, by simp⟩, loop.handles_decode []⟩
  | cons first others =>
      refine ⟨[first :: others], ⟨by simp, by simp⟩, ?_⟩
      exact .read loop.decoder.attempt_nil (loop.handles_decode _)

/-- Frames are recognized by their own elements. -/
def Local (loop : ReadLoop α V E) : Prop :=
  ∀ {buffer value consumed},
    loop.decoder.attempt buffer = .complete value consumed →
      loop.decoder.attempt (buffer.take consumed) = .complete value consumed

/-- The decoded frames come off before anything else. -/
theorem handles_behind_decoded (isLocal : Local loop)
    (left : (loop.decode data).2 = some rest) {buffer : List α}
    {chunks : List (List α)} {frames : List (List α × V)}
    (handles : loop.Handles buffer chunks frames) :
    loop.Handles (FrameDecoder.stream (loop.decode data).1 ++ buffer) chunks
      ((loop.decode data).1 ++ frames) := by
  induction data using loop.decode_induction with
  | next data value consumed found goesOn ih =>
      have bounds := loop.decoder.consumed_bounds found
      have own : (data.take consumed).length = consumed :=
        List.length_take_of_le bounds.2
      rw [decode_next found goesOn] at left ⊢
      rw [FrameDecoder.stream_cons, List.append_assoc]
      have front := Handles.next
        (loop.decoder.complete_append _ (isLocal found)) goesOn
        (by rw [List.drop_left' own]; exact ih left)
      rwa [List.take_left' own] at front
  | last data value consumed found ends =>
      rw [decode_last found ends] at left
      cases left
  | stuck data noFrame =>
      rw [decode_stuck noFrame]
      exact handles

/-- A difference behind the decoded frames is a difference of the whole. -/
theorem exists_cut_of_rest (isLocal : Local loop)
    (left : (loop.decode data).2 = some rest) {command : V → Option C}
    {front : List α} {chunks : List (List α)} {frames : List (List α × V)}
    (handles : loop.Handles front chunks frames) (cut : Cut rest front chunks)
    (started : front ≠ [])
    (different : ∃ frame ∈ frames, command frame.2 ≠ none) :
    ∃ chunks frames, Cut data [] chunks ∧ loop.Handles [] chunks frames ∧
      commands command frames ≠ commands command (loop.decode data).1 := by
  refine ⟨(FrameDecoder.stream (loop.decode data).1 ++ front) :: chunks,
    (loop.decode data).1 ++ frames, ⟨?_, ?_⟩, ?_, ?_⟩
  · rw [List.nil_append, List.flatten_cons, List.append_assoc, cut.whole]
    exact (decode_rest left).1.symm
  · rw [List.forall_mem_cons]
    exact ⟨by simp [started], cut.nonempty⟩
  · exact .read loop.decoder.attempt_nil
      (handles_behind_decoded isLocal left handles)
  · intro same
    rw [commands_append] at same
    have nothing := commands_eq_nil.mp (List.self_eq_append_right.mp same.symm)
    obtain ⟨frame, member, found⟩ := different
    exact found (nothing frame member)

/-- Chunkings agree on the data if they find no command behind the decoded
frames. -/
theorem Handles.commands_eq {command : V → Option C} {buffer : List α}
    {chunks : List (List α)} {frames : List (List α × V)}
    (handles : loop.Handles buffer chunks frames) (cut : Cut data buffer chunks)
    (barren : ∀ rest, (loop.decode data).2 = some rest →
      ∀ {front : List α} {later : List (List α)} {others : List (List α × V)},
        loop.Handles front later others → Cut rest front later →
          ∀ frame ∈ others, command frame.2 = none) :
    commands command frames = commands command (loop.decode data).1 := by
  have decoded := handles.decoded
  rw [cut.whole] at decoded
  rcases decoded with
    ⟨-, same⟩ | ⟨front, later, others, behind, left, sub, same⟩
  · rw [same]
  · have nothing := barren _ left behind
      ⟨rfl, fun chunk member => cut.nonempty chunk (sub.subset member)⟩
    rw [same, commands_append, commands_eq_nil.mpr nothing, List.append_nil]

end Whole

end ReadLoop

end RustiCache
