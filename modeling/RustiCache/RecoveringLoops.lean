import RustiCache.ChunkingAgreement

/-!
# Loops that recover

Behind the first malformed front a chunk can make a difference by ending where
the loop picks up a frame.  For a loop that drops its whole buffer this can be
any frame behind the malformed front.  For a loop that drops one element and
waits for the next chunk there must be a chunk for every element it drops.
-/

namespace RustiCache

namespace ReadLoop

variable {α V E C : Type} {loop : ReadLoop α V E}

section Clearing

variable {command : V → Option C} {buffer rest : List α}
  {chunks : List (List α)} {frames : List (List α × V)}

/-- Data without a command at any of its positions. -/
theorem Handles.inert_of_suffixes
    (keeps : ∀ buffer, loop.keep buffer <:+ buffer)
    (handles : loop.Handles buffer chunks frames)
    (barren : ∀ rest, rest <:+ buffer ++ chunks.flatten →
      ∀ value consumed, loop.decoder.attempt rest = .complete value consumed →
        command value = none) :
    ∀ frame ∈ frames, command frame.2 = none := by
  induction handles with
  | @next buffer chunks value consumed frames found goesOn rest ih =>
      have whole := loop.decoder.complete_append chunks.flatten found
      have bounds := loop.decoder.consumed_bounds found
      rw [List.forall_mem_cons]
      refine ⟨barren _ List.suffix_rfl value consumed whole, ih ?_⟩
      intro rest behind
      rw [← List.drop_append_of_le_length bounds.2] at behind
      exact barren rest (behind.trans (List.drop_suffix _ _))
  | @last buffer chunks value consumed found ends =>
      have whole := loop.decoder.complete_append chunks.flatten found
      rw [List.forall_mem_singleton]
      exact barren _ List.suffix_rfl value consumed whole
  | idle more => exact List.forall_mem_nil _
  | @read buffer chunk chunks frames more rest ih =>
      apply ih
      rw [List.append_assoc, ← List.flatten_cons]
      exact barren
  | fail malformed ended => exact List.forall_mem_nil _
  | stay malformed survived => exact List.forall_mem_nil _
  | @recover buffer chunk chunks reason frames malformed survived rest ih =>
      apply ih
      intro rest behind
      rw [List.append_assoc, ← List.flatten_cons] at behind
      obtain ⟨dropped, same⟩ := keeps buffer
      refine barren rest (behind.trans ⟨dropped, ?_⟩)
      rw [← List.append_assoc, same]

/-- No command stands behind a malformed front. -/
def Cleared (command : V → Option C) (loop : ReadLoop α V E)
    (rest : List α) : Prop :=
  ∀ received reason,
    loop.decoder.attempt (rest.take received) = .malformed reason →
      loop.fatal reason = false →
        ∀ value consumed,
          loop.decoder.attempt (rest.drop received) = .complete value consumed →
            command value = none

/-- Nothing stands behind an incomplete front, or behind one that ends the
loop. -/
theorem cleared_of_final
    (final : ∀ reason, loop.decoder.attempt rest = .malformed reason →
      loop.fatal reason = true) : Cleared command loop rest := by
  intro received reason malformed survived
  rw [final reason (FrameDecoder.malformed_of_take malformed)] at survived
  cases survived

theorem Handles.inert_of_cleared
    (clears : ∀ buffer, loop.keep buffer = [])
    (handles : loop.Handles buffer chunks frames)
    (stuck : ∀ value consumed, loop.decoder.attempt
      (buffer ++ chunks.flatten) ≠ .complete value consumed)
    (cleared : Cleared command loop (buffer ++ chunks.flatten)) :
    ∀ frame ∈ frames, command frame.2 = none := by
  induction handles with
  | @next buffer chunks value consumed frames found goesOn rest ih =>
      exact absurd (loop.decoder.complete_append chunks.flatten found)
        (stuck value consumed)
  | @last buffer chunks value consumed found ends =>
      exact absurd (loop.decoder.complete_append chunks.flatten found)
        (stuck value consumed)
  | idle more => exact List.forall_mem_nil _
  | @read buffer chunk chunks frames more rest ih =>
      rw [List.flatten_cons, ← List.append_assoc] at stuck cleared
      exact ih stuck cleared
  | fail malformed ended => exact List.forall_mem_nil _
  | stay malformed survived => exact List.forall_mem_nil _
  | @recover buffer chunk chunks reason frames malformed survived rest ih =>
      refine rest.inert_of_suffixes
        (fun buffer => by rw [clears]; exact List.nil_suffix) ?_
      rw [clears, List.nil_append, ← List.flatten_cons]
      rintro rest ⟨skipped, same⟩ value consumed found
      -- The position of `rest` lies behind the malformed buffer.
      have longer := loop.decoder.malformed_append skipped malformed
      rw [← same, ← List.append_assoc] at cleared
      apply cleared (buffer ++ skipped).length reason _ survived value consumed
      · rw [List.drop_left]
        exact found
      · rw [List.take_left]
        exact longer

/-- A frame behind a malformed front comes off if a chunk starts with it. -/
theorem exists_cut_of_not_cleared (isLocal : Local loop)
    (clears : ∀ buffer, loop.keep buffer = [])
    {data : List α} (left : (loop.decode data).2 = some rest)
    (dirty : ¬ Cleared command loop rest) :
    ∃ chunks frames, Cut data [] chunks ∧ loop.Handles [] chunks frames ∧
      commands command frames ≠ commands command (loop.decode data).1 := by
  simp only [Cleared, not_forall] at dirty
  obtain ⟨received, reason, malformed, survived, value, consumed, found,
    isCommand⟩ := dirty
  have started : rest.take received ≠ [] := by
    intro empty
    rw [empty, loop.decoder.attempt_nil] at malformed
    cases malformed
  have remains : rest.drop received ≠ [] := by
    intro empty
    rw [empty, loop.decoder.attempt_nil] at found
    cases found
  obtain ⟨frames, handles, member⟩ : ∃ frames,
      loop.Handles (rest.drop received) [] frames ∧
        ∃ frame ∈ frames, command frame.2 ≠ none := by
    cases ends : loop.ends value with
    | true => exact ⟨_, .last found ends, _, List.mem_singleton_self _, isCommand⟩
    | false =>
        obtain ⟨others, behind⟩ := loop.handles_total []
          ((rest.drop received).drop consumed)
        exact ⟨_, .next found ends behind, _, List.mem_cons_self, isCommand⟩
  refine exists_cut_of_rest isLocal left
    (.recover malformed survived
      (by rw [clears, List.nil_append]; exact handles))
    ⟨?_, ?_⟩ started member
  · simp
  · simpa using remains

theorem Handles.commands_of_cleared {data : List α}
    (clears : ∀ buffer, loop.keep buffer = [])
    (handles : loop.Handles buffer chunks frames) (cut : Cut data buffer chunks)
    (cleared : ∀ rest, (loop.decode data).2 = some rest →
      Cleared command loop rest) :
    commands command frames = commands command (loop.decode data).1 := by
  apply handles.commands_eq cut
  intro rest left front later others behind parts
  refine behind.inert_of_cleared clears ?_ ?_
  · rw [parts.whole]
    exact (decode_rest left).2
  · rw [parts.whole]
    exact cleared rest left

end Clearing

section Skipping

variable {command : V → Option C} {buffer rest : List α}
  {chunks : List (List α)} {frames : List (List α × V)}

/-- A command comes off at last, while some elements are
still missing: the loop passes other frames, and it drops an element wherever
there is a malformed front before the missing ones. -/
inductive Salvaged (command : V → Option C) (loop : ReadLoop α V E) :
    List α → Nat → Prop
  | found {rest : List α} {value : V} {consumed : Nat}
      (found : loop.decoder.attempt rest = .complete value consumed)
      (active : command value ≠ none) :
      Salvaged command loop rest 0
  | pass {rest : List α} {value : V} {consumed missing : Nat}
      (found : loop.decoder.attempt (rest.take (rest.length - missing)) =
        .complete value consumed)
      (passed : command value = none)
      (later : Salvaged command loop (rest.drop consumed) missing) :
      Salvaged command loop rest missing
  | drop {rest : List α} {reason : E} {missing : Nat}
      (malformed : loop.decoder.attempt
        (rest.take (rest.length - (missing + 1))) = .malformed reason)
      (survived : loop.fatal reason = false)
      (later : Salvaged command loop (rest.drop 1) missing) :
      Salvaged command loop rest (missing + 1)

/-- A buffer is among the elements before the missing ones. -/
theorem take_before_missing {buffer unread : List α} {missing : Nat}
    (enough : missing ≤ unread.length) :
    (buffer ++ unread).take ((buffer ++ unread).length - missing) =
      buffer ++ unread.take (unread.length - missing) := by
  rw [List.length_append, Nat.add_sub_assoc enough, List.take_length_add_append]

theorem Handles.salvaged
    (skips : ∀ buffer, loop.keep buffer = buffer.drop 1)
    (handles : loop.Handles buffer chunks frames)
    (nonempty : ∀ chunk ∈ chunks, chunk ≠ [])
    (active : ∃ frame ∈ frames, command frame.2 ≠ none) :
    ∃ missing ≤ chunks.length,
      Salvaged command loop (buffer ++ chunks.flatten) missing := by
  induction handles with
  | @next buffer chunks value consumed frames found goesOn rest ih =>
      have bounds := loop.decoder.consumed_bounds found
      by_cases passed : command value = none
      · obtain ⟨missing, few, later⟩ := ih nonempty (by simpa [passed] using active)
        have enough := Nat.le_trans few (length_le_flatten nonempty)
        refine ⟨missing, few, .pass ?_ passed
          (by rwa [List.drop_append_of_le_length bounds.2])⟩
        rw [take_before_missing enough]
        exact loop.decoder.complete_append _ found
      · exact ⟨0, Nat.zero_le _,
          .found (loop.decoder.complete_append _ found) passed⟩
  | @last buffer chunks value consumed found ends =>
      refine ⟨0, Nat.zero_le _,
        .found (loop.decoder.complete_append _ found) ?_⟩
      simpa using active
  | idle more => simp at active
  | @read buffer chunk chunks frames more rest ih =>
      rw [List.forall_mem_cons] at nonempty
      obtain ⟨missing, few, later⟩ := ih nonempty.2 active
      rw [List.flatten_cons, ← List.append_assoc]
      exact ⟨missing, Nat.le_succ_of_le few, later⟩
  | fail malformed ended => simp at active
  | stay malformed survived => simp at active
  | @recover buffer chunk chunks reason frames malformed survived rest ih =>
      obtain ⟨missing, few, later⟩ := ih
        (List.forall_mem_cons.mp nonempty).2 active
      have enough : missing + 1 ≤ (chunk :: chunks).flatten.length :=
        Nat.le_trans (Nat.succ_le_succ few) (length_le_flatten nonempty)
      have started : 1 ≤ buffer.length := by
        cases buffer with
        | nil =>
            rw [loop.decoder.attempt_nil] at malformed
            cases malformed
        | cons first buffer => simp
      refine ⟨missing + 1, Nat.succ_le_succ few, .drop ?_ survived ?_⟩
      · rw [take_before_missing enough]
        exact loop.decoder.malformed_append _ malformed
      · rw [skips, List.append_assoc, ← List.flatten_cons] at later
        rwa [List.drop_append_of_le_length started]

/-- The missing elements arrive one by one. -/
theorem Salvaged.handles {missing : Nat}
    (skips : ∀ buffer, loop.keep buffer = buffer.drop 1)
    (endless : ∀ value, loop.ends value = false)
    (salvaged : Salvaged command loop rest missing) :
    ∃ frames,
      loop.Handles (rest.take (rest.length - missing))
          ((rest.drop (rest.length - missing)).map fun element => [element])
          frames ∧
        ∃ frame ∈ frames, command frame.2 ≠ none := by
  induction salvaged with
  | @found rest value consumed found active =>
      obtain ⟨others, behind⟩ := loop.handles_total [] (rest.drop consumed)
      rw [Nat.sub_zero, List.take_length, List.drop_length]
      exact ⟨_, .next found (endless value) behind, _, List.mem_cons_self,
        active⟩
  | @pass rest value consumed missing found passed later ih =>
      obtain ⟨frames, handles, frame, member, active⟩ := ih
      have bounds := loop.decoder.consumed_bounds found
      rw [List.length_take] at bounds
      rw [List.length_drop, List.drop_drop] at handles
      have same : consumed + (rest.length - consumed - missing) =
          rest.length - missing := by omega
      have size : rest.length - consumed - missing =
          rest.length - missing - consumed := by omega
      rw [same, size, ← List.drop_take] at handles
      exact ⟨_, .next found (endless value) handles, frame,
        List.mem_cons_of_mem _ member, active⟩
  | @drop rest reason missing malformed survived later ih =>
      obtain ⟨frames, handles, active⟩ := ih
      have started : 0 < rest.length - (missing + 1) := by
        rw [Nat.pos_iff_ne_zero]
        intro none
        rw [none, List.take_zero, loop.decoder.attempt_nil] at malformed
        cases malformed
      have inside : rest.length - (missing + 1) < rest.length := by omega
      have size : (rest.drop 1).length - missing =
          rest.length - (missing + 1) := by
        rw [List.length_drop]
        omega
      rw [size, List.drop_drop, Nat.add_comm 1] at handles
      generalize rest.length - (missing + 1) = received at *
      -- The next element arrives when the first of the buffer is dropped.
      have refill : (rest.take received).drop 1 ++ [rest.get ⟨received, inside⟩] =
          (rest.drop 1).take received := by
        have full : 1 ≤ (rest.take received).length := by
          rw [List.length_take]
          omega
        rw [← List.drop_append_of_le_length full, List.get_eq_getElem,
          List.take_append_getElem, List.drop_take]
        rfl
      refine ⟨frames, ?_, active⟩
      rw [List.drop_eq_getElem_cons inside, List.map_cons]
      refine .recover malformed survived ?_
      rw [skips]
      rw [← refill] at handles
      exact handles

theorem Handles.commands_of_unsalvaged {data : List α}
    (skips : ∀ buffer, loop.keep buffer = buffer.drop 1)
    (handles : loop.Handles buffer chunks frames) (cut : Cut data buffer chunks)
    (unsalvaged : ∀ rest, (loop.decode data).2 = some rest →
      ∀ missing, ¬ Salvaged command loop rest missing) :
    commands command frames = commands command (loop.decode data).1 := by
  apply handles.commands_eq cut
  intro rest left front later others behind parts frame member
  by_contra active
  obtain ⟨missing, -, salvaged⟩ := behind.salvaged skips
    parts.nonempty ⟨frame, member, active⟩
  rw [parts.whole] at salvaged
  exact unsalvaged rest left missing salvaged

theorem not_salvaged_of_final
    (stuck : ∀ value consumed,
      loop.decoder.attempt rest ≠ .complete value consumed)
    (final : ∀ reason, loop.decoder.attempt rest = .malformed reason →
      loop.fatal reason = true) (missing : Nat) :
    ¬ Salvaged command loop rest missing := by
  intro salvaged
  cases salvaged with
  | found found active => exact stuck _ _ found
  | pass found passed later =>
      exact stuck _ _ (FrameDecoder.complete_of_take found)
  | drop malformed survived later =>
      rw [final _ (FrameDecoder.malformed_of_take malformed)] at survived
      cases survived

theorem Salvaged.started {missing : Nat}
    (salvaged : Salvaged command loop rest missing) :
    rest.take (rest.length - missing) ≠ [] := by
  intro empty
  cases salvaged with
  | found found active =>
      rw [Nat.sub_zero, List.take_length] at empty
      rw [empty, loop.decoder.attempt_nil] at found
      cases found
  | pass found passed later =>
      rw [empty, loop.decoder.attempt_nil] at found
      cases found
  | drop malformed survived later =>
      rw [empty, loop.decoder.attempt_nil] at malformed
      cases malformed

theorem exists_cut_of_salvaged (isLocal : Local loop)
    (skips : ∀ buffer, loop.keep buffer = buffer.drop 1)
    (endless : ∀ value, loop.ends value = false)
    {data : List α} (left : (loop.decode data).2 = some rest) {missing : Nat}
    (salvaged : Salvaged command loop rest missing) :
    ∃ chunks frames, Cut data [] chunks ∧ loop.Handles [] chunks frames ∧
      commands command frames ≠ commands command (loop.decode data).1 := by
  obtain ⟨frames, handles, active⟩ := salvaged.handles skips endless
  refine exists_cut_of_rest isLocal left handles ⟨?_, ?_⟩ salvaged.started active
  · rw [← List.flatMap_def, List.flatMap_singleton', List.take_append_drop]
  · intro chunk member
    obtain ⟨element, -, rfl⟩ := List.mem_map.mp member
    exact List.cons_ne_nil _ _

end Skipping

end ReadLoop

end RustiCache
