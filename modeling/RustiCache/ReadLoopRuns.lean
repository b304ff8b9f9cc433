import RustiCache.ActionRuns
import RustiCache.ReaderMoves

/-!
# Runs of read loops

If the steps of a task show as moves of a reader, then a run that has received
all chunks has taken off the frames that the loop handles.  If the task can make
every round and read every chunk, there is such a run for every way to cut the
data.
-/

namespace RustiCache

namespace ReadLoop

section Runs

variable {α V E : Type} {loop : ReadLoop α V E} {σ A : Type*}
  {step : σ → A → Option σ} {allowed : σ → A → Prop} {view : σ → Reader α V}
  {chunk? : A → Option (List α)} {limit : Nat}

theorem filterMap_snoc (actions : List A) (action : A) :
    (actions ++ [action]).filterMap chunk? =
      actions.filterMap chunk? ++ (chunk? action).toList := by
  rw [List.filterMap_append]
  cases found : chunk? action <;> simp [found]

/-- A run takes off what lay ahead of its first state, as long as the buffer
stays within the limit. -/
theorem ahead_of_reaches (keeps : ∀ buffer, loop.keep buffer <:+ buffer)
    (moves : ∀ {state action next}, allowed state action →
      step state action = some next →
      ((view state).buffer ++ (chunk? action).getD []).length ≤ limit →
      loop.Moves (view state) (chunk? action) (view next))
    {start final : σ} {actions : List A}
    (reaches : Reaches step allowed start actions final)
    (small : (view start).buffer.length +
      (actions.filterMap chunk?).flatten.length ≤ limit)
    {chunks : List (List α)} {frames : List (List α × V)}
    (ahead : loop.Ahead (view final) chunks frames) :
    ∃ taken, (view final).handled = (view start).handled ++ taken ∧
      loop.Ahead (view start) (actions.filterMap chunk? ++ chunks)
        (taken ++ frames) := by
  suffices reading : (view final).buffer.length ≤ (view start).buffer.length +
      (actions.filterMap chunk?).flatten.length ∧
      ∀ {chunks frames}, loop.Ahead (view final) chunks frames →
        ∃ taken, (view final).handled = (view start).handled ++ taken ∧
          loop.Ahead (view start) (actions.filterMap chunk? ++ chunks)
            (taken ++ frames) from reading.2 ahead
  clear ahead
  induction reaches with
  | refl =>
      refine ⟨Nat.le_add_right _ _, fun ahead => ?_⟩
      exact ⟨[], (List.append_nil _).symm, ahead⟩
  | @snoc state next actions action before meets taken ih =>
      have total : ((actions ++ [action]).filterMap chunk?).flatten.length =
          (actions.filterMap chunk?).flatten.length +
            ((chunk? action).getD []).length := by
        rw [filterMap_snoc, List.flatten_append, List.length_append]
        cases chunk? action <;> simp
      rw [total] at small ⊢
      obtain ⟨bound, earlier⟩ := ih (by omega)
      have move := moves meets taken (by rw [List.length_append]; omega)
      have grown := move.buffer_length keeps
      refine ⟨by omega, fun {chunks frames} ahead => ?_⟩
      obtain ⟨last, handledLast, aheadLast⟩ := move.ahead ahead
      obtain ⟨first, handledFirst, aheadFirst⟩ := earlier aheadLast
      refine ⟨first ++ last, ?_, ?_⟩
      · rw [handledLast, handledFirst, List.append_assoc]
      · rw [filterMap_snoc, List.append_assoc, List.append_assoc]
        exact aheadFirst

/-- All chunks have been read, or the loop has ended before. -/
def Done (phase : Phase) (read chunks : List (List α)) : Prop :=
  phase = .waiting ∧ read = chunks ∨ phase = .ended ∧ read <+: chunks

variable (view chunk?) in
theorem handles_of_done (keeps : ∀ buffer, loop.keep buffer <:+ buffer)
    (moves : ∀ {state action next}, allowed state action →
      step state action = some next →
      ((view state).buffer ++ (chunk? action).getD []).length ≤ limit →
      loop.Moves (view state) (chunk? action) (view next))
    {start final : σ} {actions : List A} {chunks : List (List α)}
    (reaches : Reaches step allowed start actions final)
    (done : Done (view final).phase (actions.filterMap chunk?) chunks)
    (fresh : (view start).handled = [])
    (small : (view start).buffer.length + chunks.flatten.length ≤ limit) :
    loop.Ahead (view start) chunks (view final).handled := by
  have part : (actions.filterMap chunk?) <+: chunks := by
    rcases done with ⟨-, same⟩ | ⟨-, part⟩
    · exact ⟨[], by rw [List.append_nil, same]⟩
    · exact part
  obtain ⟨unread, rfl⟩ := part
  have nothing : loop.Ahead (view final) unread [] := by
    unfold Ahead
    rcases done with ⟨waiting, same⟩ | ⟨ended, -⟩
    · rw [waiting, List.self_eq_append_right.mp same]
    · rw [ended]
  rw [List.flatten_append, List.length_append] at small
  obtain ⟨taken, handled, ahead⟩ := ahead_of_reaches keeps moves reaches
    (by omega) nothing
  rw [fresh, List.nil_append] at handled
  rw [handled]
  rwa [List.append_nil] at ahead

section Progress

variable (step allowed view chunk?)

/-- Some run from the state reads the chunks to the end and has taken off the
frames then. -/
def Completes (state : σ) (chunks : List (List α))
    (frames : List (List α × V)) : Prop :=
  ∃ actions final, Reaches step allowed state actions final ∧
    Done (view final).phase (actions.filterMap chunk?) chunks ∧
    (view final).handled = frames

variable {step allowed view chunk?}
  (rounds : ∀ {state}, (view state).phase = .draining →
    ∃ action next, allowed state action ∧ step state action = some next ∧
      chunk? action = none ∧ view next = loop.round (view state))
  (reads : ∀ {state chunk}, (view state).phase = .waiting → chunk ≠ [] →
    (view state).buffer.length + chunk.length ≤ limit →
    ∃ action next, allowed state action ∧ step state action = some next ∧
      chunk? action = some chunk ∧ view next = (view state).receive chunk)

include rounds in
theorem completes_of_round {state : σ} {buffer : List α}
    {handled : List (List α × V)} {reader : Reader α V}
    (shows : view state = ⟨buffer, handled, .draining⟩)
    (outcome : loop.round ⟨buffer, handled, .draining⟩ = reader)
    {chunks : List (List α)} {frames : List (List α × V)}
    (after : ∀ {next}, view next = reader →
      Completes step allowed view chunk? next chunks frames) :
    Completes step allowed view chunk? state chunks frames := by
  obtain ⟨action, next, meets, taken, silent, showsNext⟩ :=
    rounds (by rw [shows])
  rw [shows, outcome] at showsNext
  obtain ⟨actions, final, reaches, done, handled⟩ := after showsNext
  refine ⟨action :: actions, final, .cons meets taken reaches, ?_, handled⟩
  rwa [List.filterMap_cons_none silent]

include reads in
theorem completes_of_read {state : σ} {buffer chunk : List α}
    {handled : List (List α × V)}
    (shows : view state = ⟨buffer, handled, .waiting⟩) (nonempty : chunk ≠ [])
    (fits : buffer.length + chunk.length ≤ limit)
    {chunks : List (List α)} {frames : List (List α × V)}
    (after : ∀ {next}, view next = ⟨buffer ++ chunk, handled, .draining⟩ →
      Completes step allowed view chunk? next chunks frames) :
    Completes step allowed view chunk? state (chunk :: chunks) frames := by
  obtain ⟨action, next, meets, taken, shown, showsNext⟩ :=
    reads (by rw [shows]) nonempty (by rw [shows]; exact fits)
  rw [shows] at showsNext
  obtain ⟨actions, final, reaches, done, handled⟩ := after showsNext
  refine ⟨action :: actions, final, .cons meets taken reaches, ?_, handled⟩
  rw [List.filterMap_cons_some shown]
  rcases done with ⟨waits, same⟩ | ⟨ended, part⟩
  · exact Or.inl ⟨waits, by rw [same]⟩
  · exact Or.inr ⟨ended, List.cons_prefix_cons.mpr ⟨rfl, part⟩⟩

theorem completes_of_waiting {state : σ} {buffer : List α}
    {handled : List (List α × V)}
    (shows : view state = ⟨buffer, handled, .waiting⟩) :
    Completes step allowed view chunk? state [] handled :=
  ⟨[], state, .refl state, Or.inl ⟨by rw [shows], rfl⟩, by rw [shows]⟩

theorem completes_of_ended {state : σ} {buffer : List α}
    {handled : List (List α × V)}
    (shows : view state = ⟨buffer, handled, .ended⟩) (chunks : List (List α)) :
    Completes step allowed view chunk? state chunks handled :=
  ⟨[], state, .refl state, Or.inr ⟨by rw [shows], List.nil_prefix⟩,
    by rw [shows]⟩

include rounds reads in
/-- There is a run for all that the loop handles. -/
theorem completes_of_handles (keeps : ∀ buffer, loop.keep buffer <:+ buffer)
    {buffer : List α} {chunks : List (List α)} {frames : List (List α × V)}
    (handles : loop.Handles buffer chunks frames)
    (nonempty : ∀ chunk ∈ chunks, chunk ≠ [])
    (small : buffer.length + chunks.flatten.length ≤ limit) {state : σ}
    {handled : List (List α × V)}
    (shows : view state = ⟨buffer, handled, .draining⟩) :
    Completes step allowed view chunk? state chunks (handled ++ frames) := by
  induction handles generalizing state handled with
  | @next buffer chunks value consumed frames found goesOn rest ih =>
      refine completes_of_round rounds shows (round_next _ _ found goesOn) ?_
      intro next showsNext
      have others := ih nonempty (by rw [List.length_drop]; omega) showsNext
      rwa [List.append_assoc] at others
  | last found ends =>
      refine completes_of_round rounds shows (round_last _ _ found ends) ?_
      exact fun showsNext => completes_of_ended showsNext _
  | idle more =>
      rw [List.append_nil]
      exact completes_of_round rounds shows (round_incomplete _ _ more)
        completes_of_waiting
  | @read buffer chunk chunks frames more rest ih =>
      rw [List.forall_mem_cons] at nonempty
      rw [List.flatten_cons, List.length_append] at small
      refine completes_of_round rounds shows (round_incomplete _ _ more) ?_
      intro middle waits
      refine completes_of_read reads waits nonempty.1 (by omega) ?_
      exact ih nonempty.2 (by rw [List.length_append]; omega)
  | fail malformed ended =>
      rw [List.append_nil]
      refine completes_of_round rounds shows (round_fatal _ _ malformed ended) ?_
      exact fun showsNext => completes_of_ended showsNext _
  | stay malformed survived =>
      rw [List.append_nil]
      exact completes_of_round rounds shows
        (round_survived _ _ malformed survived) completes_of_waiting
  | @recover buffer chunk chunks reason frames malformed survived rest ih =>
      have shorter := (keeps buffer).length_le
      rw [List.forall_mem_cons] at nonempty
      rw [List.flatten_cons, List.length_append] at small
      refine completes_of_round rounds shows
        (round_survived _ _ malformed survived) ?_
      intro middle waits
      refine completes_of_read reads waits nonempty.1 (by omega) ?_
      exact ih nonempty.2 (by rw [List.length_append]; omega)

variable (view chunk?) in
include rounds reads in
/-- There is a run for all that lies ahead. -/
theorem completes_of_ahead (keeps : ∀ buffer, loop.keep buffer <:+ buffer)
    {state : σ} {chunks : List (List α)} {frames : List (List α × V)}
    (ahead : loop.Ahead (view state) chunks frames)
    (nonempty : ∀ chunk ∈ chunks, chunk ≠ [])
    (small : (view state).buffer.length + chunks.flatten.length ≤ limit) :
    Completes step allowed view chunk? state chunks
      ((view state).handled ++ frames) := by
  unfold Ahead at ahead
  split at ahead
  next draining =>
    exact completes_of_handles rounds reads keeps ahead nonempty small
      (by rw [← draining])
  next waiting =>
    rw [ahead, List.append_nil]
    exact completes_of_waiting (by rw [← waiting])
  next chunk chunks waiting =>
    rw [List.forall_mem_cons] at nonempty
    rw [List.flatten_cons, List.length_append] at small
    refine completes_of_read reads (by rw [← waiting]) nonempty.1 (by omega) ?_
    exact completes_of_handles rounds reads keeps ahead nonempty.2
      (by rw [List.length_append]; omega)
  next ended =>
    rw [ahead, List.append_nil]
    exact completes_of_ended (by rw [← ended]) _

end Progress

end Runs

end ReadLoop

end RustiCache
