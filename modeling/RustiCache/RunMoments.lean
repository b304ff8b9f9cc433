import RustiCache.ActionRuns

/-!
# Moments of a run

A property may hold at some moment of a run or at all of them.  When the run
goes on by a step, what held at some moment still did, and what holds at all
moments of the longer run held at all moments of the shorter one.  What the
actions of a run show can be collected in a list.
-/

namespace RustiCache

section Moments

variable {σ α : Type*} (step : σ → α → Option σ) (allowed : σ → α → Prop)
  (start : σ)

/-- The property holds in some state on the way. -/
def Sometime (actions : List α) (holds : σ → Prop) : Prop :=
  ∃ past state, past <+: actions ∧ Reaches step allowed start past state ∧
    holds state

/-- The property holds in all states on the way. -/
def Throughout (actions : List α) (holds : σ → Prop) : Prop :=
  ∀ past state, past <+: actions → Reaches step allowed start past state →
    holds state

variable {step allowed start} {actions : List α} {holds : σ → Prop}

theorem Sometime.snoc (earlier : Sometime step allowed start actions holds)
    (action : α) : Sometime step allowed start (actions ++ [action]) holds := by
  obtain ⟨past, state, early, reaches, held⟩ := earlier
  exact ⟨past, state, early.trans (List.prefix_append _ _), reaches, held⟩

theorem Reaches.sometime {final : σ}
    (reaches : Reaches step allowed start actions final) (held : holds final) :
    Sometime step allowed start actions holds :=
  ⟨actions, final, List.prefix_rfl, reaches, held⟩

theorem Throughout.init {action : α}
    (along : Throughout step allowed start (actions ++ [action]) holds) :
    Throughout step allowed start actions holds :=
  fun past state early =>
    along past state (early.trans (List.prefix_append _ _))

theorem Throughout.final {final : σ}
    (along : Throughout step allowed start actions holds)
    (reaches : Reaches step allowed start actions final) : holds final :=
  along actions final List.prefix_rfl reaches

/-- If a step adds at most one item to a log, then the log was every one of its
beginnings at some moment since. -/
theorem Reaches.sometime_log {β : Type*} (log : σ → List β)
    (grows : ∀ {state action next}, step state action = some next →
      ∃ items, items.length ≤ 1 ∧ log next = log state ++ items)
    {final : σ} (reaches : Reaches step allowed start actions final)
    {front : List β} (since : log start <+: front) (within : front <+: log final) :
    Sometime step allowed start actions fun state => log state = front := by
  induction reaches with
  | refl =>
      exact (Reaches.refl start).sometime
        (since.eq_of_length_le within.length_le)
  | @snoc state next actions action before meets taken ih =>
      obtain ⟨items, few, added⟩ := grows taken
      rcases items with _ | ⟨item, _ | ⟨other, items⟩⟩
      · rw [added, List.append_nil] at within
        exact (ih within).snoc action
      · rw [added] at within
        rcases List.prefix_concat_iff.mp within with whole | inside
        · exact (before.snoc meets taken).sometime (added.trans whole.symm)
        · exact (ih inside).snoc action
      · simp at few

end Moments

section Observations

variable {σ α β : Type*} (step : σ → α → Option σ) (shown : σ → α → Option β)

/-- What the actions of a schedule show, in the states where they are taken. -/
def observed : σ → List α → List β
  | _, [] => []
  | state, action :: actions =>
      (shown state action).toList ++
        ((step state action).map fun next => observed next actions).getD []

variable {step shown}

end Observations

end RustiCache
