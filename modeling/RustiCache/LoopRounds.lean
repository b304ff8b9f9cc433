import RustiCache.ActionRuns
import RustiCache.ReaderMoves

/-!
# How many rounds a loop takes

A number that goes down with every counted action, and never goes up, bounds how
often the counted actions can be taken.  A reader that drains its buffer has such
a number if its frames have a least length: every round takes off a frame or is
the last.
-/

namespace RustiCache

section Counting

variable {σ α : Type*} {step : σ → α → Option σ} {allowed : σ → α → Prop}

/-- A measure that every counted action brings down bounds their number. -/
theorem Reaches.countP_add_le {start final : σ} {actions : List α}
    (reaches : Reaches step allowed start actions final)
    {counted : α → Bool} (measure : σ → Nat)
    (down : ∀ {state action next}, allowed state action →
      step state action = some next →
      measure next + (if counted action then 1 else 0) ≤ measure state) :
    actions.countP counted + measure final ≤ measure start := by
  induction reaches with
  | refl => simp
  | @snoc state next actions action before meets taken ih =>
      have lower := down meets taken
      rw [List.countP_append, List.countP_singleton]
      omega

end Counting

namespace ReadLoop

variable {α V E : Type} (loop : ReadLoop α V E)

/-- No frame has fewer than so many items. -/
def AtLeast (least : Nat) : Prop :=
  ∀ {buffer value consumed},
    loop.decoder.attempt buffer = .complete value consumed → least ≤ consumed

/-- How many rounds a reader can still take over its buffer. -/
def Reader.roundsLeft (least : Nat) (reader : Reader α V) : Nat :=
  match reader.phase with
  | .draining => reader.buffer.length / least + 1
  | _ => 0

variable {loop} {least : Nat} {reader : Reader α V}

theorem roundsLeft_of_draining (draining : reader.phase = .draining) :
    reader.roundsLeft least = reader.buffer.length / least + 1 := by
  rw [Reader.roundsLeft, draining]

theorem roundsLeft_of_not_draining (settled : reader.phase ≠ .draining) :
    reader.roundsLeft least = 0 := by
  cases reader with
  | mk buffer handled phase => cases phase <;> simp_all [Reader.roundsLeft]

theorem div_add_one_le {length consumed : Nat} (positive : 0 < least)
    (enough : least ≤ consumed) (inside : consumed ≤ length) :
    (length - consumed) / least + 1 ≤ length / least := by
  have shifted : (length - consumed) / least ≤ (length - least) / least :=
    Nat.div_le_div_right (by omega)
  have whole : length / least = (length - least) / least + 1 :=
    Nat.div_eq_sub_div positive (by omega)
  omega

/-- A round takes a frame off, or it is the last one. -/
theorem round_ends_or_shrinks (positive : 0 < least)
    (atLeast : loop.AtLeast least) (reader : Reader α V) :
    (loop.round reader).phase ≠ .draining ∨
      (loop.round reader).buffer.length / least + 1 ≤
        reader.buffer.length / least := by
  cases found : loop.decoder.attempt reader.buffer with
  | complete value consumed =>
      right
      have inside := (loop.decoder.consumed_bounds found).2
      have shorter := div_add_one_le positive (atLeast found) inside
      simpa [round, found] using shorter
  | incomplete =>
      left
      simp [round, found]
  | malformed reason =>
      left
      cases fatal : loop.fatal reason <;> simp [round, found, fatal]

/-- Every round brings the number of rounds left down. -/
theorem roundsLeft_round (positive : 0 < least) (atLeast : loop.AtLeast least)
    (draining : reader.phase = .draining) :
    (loop.round reader).roundsLeft least + 1 ≤ reader.roundsLeft least := by
  rw [roundsLeft_of_draining draining]
  by_cases goesOn : (loop.round reader).phase = .draining
  · rw [roundsLeft_of_draining goesOn]
    rcases round_ends_or_shrinks positive atLeast reader with ended | shorter
    · exact absurd goesOn ended
    · omega
  · rw [roundsLeft_of_not_draining goesOn]
    exact Nat.le_add_left _ _

section Systems

variable {σ A : Type*} {step : σ → A → Option σ} (view : σ → Reader α V)

/-- A task that takes rounds of the reader gets to the end of its buffer. -/
theorem rounds_end {M : Type*} (round : M → A) (positive : 0 < least)
    (atLeast : loop.AtLeast least)
    (takes : ∀ {state}, (view state).phase = .draining → ∀ moment,
      ∃ next, step state (round moment) = some next ∧
        view next = loop.round (view state))
    {state : σ} {moments : List M}
    (enough : (view state).buffer.length / least < moments.length) :
    ∃ count last,
      runActions step state ((moments.map round).take count) = some last ∧
        (view last).phase ≠ .draining := by
  have progress : ∀ {state action}, True →
      ¬ (view state).phase ≠ .draining → action ∈ moments.map round →
      ∃ next, step state action = some next ∧ True ∧
        ((view next).phase ≠ .draining ∨
          (view next).buffer.length / least <
            (view state).buffer.length / least) := by
    intro state action _ drains member
    obtain ⟨moment, -, rfl⟩ := List.mem_map.mp member
    obtain ⟨next, taken, same⟩ := takes (not_not.mp drains) moment
    refine ⟨next, taken, trivial, ?_⟩
    rw [same]
    rcases round_ends_or_shrinks positive atLeast (view state) with
      ended | shorter
    · exact Or.inl ended
    · exact Or.inr (by omega)
  obtain ⟨count, last, ran, -, settled⟩ := runActions_ends
    (fun state => (view state).buffer.length / least) progress trivial
    (fun _ member => member) (by rwa [List.length_map])
  exact ⟨count, last, ran, settled⟩

/-- No run over one buffer takes more rounds than it has room for frames, and one
more. -/
theorem rounds_le (positive : 0 < least) (atLeast : loop.AtLeast least)
    {isRound : A → Bool} {allowed : σ → A → Prop} {start final : σ}
    {actions : List A} (reaches : Reaches step allowed start actions final)
    (moves : ∀ {state action next}, (view state).phase = .draining →
      step state action = some next →
      if isRound action then view next = loop.round (view state)
      else view next = view state ∨ (view next).phase ≠ .draining)
    (drains : ∀ {state action}, allowed state action →
      (view state).phase = .draining) :
    actions.countP isRound ≤ (view start).buffer.length / least + 1 := by
  have down : ∀ {state action next}, allowed state action →
      step state action = some next →
      (view next).roundsLeft least + (if isRound action then 1 else 0) ≤
        (view state).roundsLeft least := by
    intro state action next meets taken
    have draining := drains meets
    have moved := moves draining taken
    cases kind : isRound action with
    | true =>
        rw [kind, if_pos rfl] at moved
        rw [moved, if_pos rfl]
        exact roundsLeft_round positive atLeast draining
    | false =>
        simp only [kind, Bool.false_eq_true, if_false] at moved ⊢
        rcases moved with same | settled
        · rw [same]
          exact Nat.le_refl _
        · rw [roundsLeft_of_not_draining settled]
          exact Nat.zero_le _
  have counted := reaches.countP_add_le
    (fun state => (view state).roundsLeft least) down
  have most : (view start).roundsLeft least ≤
      (view start).buffer.length / least + 1 := by
    by_cases draining : (view start).phase = .draining
    · exact Nat.le_of_eq (roundsLeft_of_draining draining)
    · rw [roundsLeft_of_not_draining draining]
      exact Nat.zero_le _
  exact Nat.le_trans (Nat.le_add_right _ _) (Nat.le_trans counted most)

end Systems

end ReadLoop

end RustiCache
