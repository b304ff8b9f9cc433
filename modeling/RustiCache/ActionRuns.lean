import Mathlib.Tactic.Common

/-!
# Runs of a system under a schedule of actions

A system is a step function that says what an action does in a state, or that
the action cannot be taken there.  A schedule is a list of actions.  A run may
be restricted to actions that meet a condition in the state where they are
taken, and an invariant then only has to be kept by those.
-/

namespace RustiCache

section Runs

variable {σ α : Type*} (step : σ → α → Option σ)

/-- Take the actions of a schedule one after another. -/
def runActions : σ → List α → Option σ
  | state, [] => some state
  | state, action :: actions =>
      (step state action).bind fun next => runActions next actions

theorem runActions_append (state : σ) (first second : List α) :
    runActions step state (first ++ second) =
      (runActions step state first).bind fun next =>
        runActions step next second := by
  induction first generalizing state with
  | nil => rfl
  | cons action actions ih =>
      simp only [List.cons_append, runActions]
      cases step state action with
      | none => rfl
      | some next => exact ih next

/-- A schedule leads from one state to another, and every action on the way
meets the condition where it is taken. -/
inductive Reaches (allowed : σ → α → Prop) : σ → List α → σ → Prop where
  | refl (state : σ) : Reaches allowed state [] state
  | snoc {start state next : σ} {actions : List α} {action : α}
      (before : Reaches allowed start actions state)
      (meets : allowed state action) (taken : step state action = some next) :
      Reaches allowed start (actions ++ [action]) next

variable {step} {allowed : σ → α → Prop}

namespace Reaches

/-- The invariant rule: what the first state has and every allowed step keeps
holds in every state reached. -/
theorem invariant {holds : σ → Prop}
    (kept : ∀ {state action next}, holds state → allowed state action →
      step state action = some next → holds next)
    {start final : σ} {actions : List α}
    (reaches : Reaches step allowed start actions final)
    (initially : holds start) : holds final := by
  induction reaches with
  | refl => exact initially
  | snoc _ meets taken ih => exact kept ih meets taken

theorem runs {start final : σ} {actions : List α}
    (reaches : Reaches step allowed start actions final) :
    runActions step start actions = some final := by
  induction reaches with
  | refl => rfl
  | snoc _ _ taken ih =>
      rw [runActions_append, ih, Option.bind_some, runActions, taken]
      rfl

/-- An invariant may be added to the condition. -/
theorem strengthen {holds : σ → Prop}
    (kept : ∀ {state action next}, holds state → allowed state action →
      step state action = some next → holds next)
    {start final : σ} {actions : List α}
    (reaches : Reaches step allowed start actions final)
    (initially : holds start) :
    Reaches step (fun state action => holds state ∧ allowed state action) start
      actions final := by
  induction reaches with
  | refl => exact refl start
  | snoc before meets taken ih =>
      exact snoc ih ⟨before.invariant kept initially, meets⟩ taken

theorem unsnoc {start final : σ} {actions : List α} {action : α}
    (reaches : Reaches step allowed start (actions ++ [action]) final) :
    ∃ state, Reaches step allowed start actions state ∧ allowed state action ∧
      step state action = some final := by
  generalize whole : actions ++ [action] = schedule at reaches
  cases reaches with
  | refl => simp at whole
  | snoc before meets taken =>
      obtain ⟨rfl, same⟩ := List.append_inj' whole rfl
      cases same
      exact ⟨_, before, meets, taken⟩

/-- A run that goes on by one step meets another condition if it did so far and
the step does. -/
theorem snoc_iff {other : σ → α → Prop} {start state next : σ}
    {actions : List α} {action : α}
    (before : Reaches step other start actions state)
    (taken : step state action = some next) :
    Reaches step allowed start (actions ++ [action]) next ↔
      Reaches step allowed start actions state ∧ allowed state action := by
  constructor
  · intro reaches
    obtain ⟨last, beforeLast, meets, -⟩ := reaches.unsnoc
    have same : last = state :=
      Option.some.inj (beforeLast.runs.symm.trans before.runs)
    subst same
    exact ⟨beforeLast, meets⟩
  · rintro ⟨reaches, meets⟩
    exact snoc reaches meets taken

/-- A property holds all along a run exactly if it holds at the start and every
step meets a condition, when the condition says which steps keep it. -/
theorem throughout_iff {other : σ → α → Prop} {side holds : σ → Prop}
    (sideKept : ∀ {state action next}, side state → other state action →
      step state action = some next → side next)
    (keeps : ∀ {state action next}, side state → other state action →
      holds state → step state action = some next →
      (holds next ↔ allowed state action))
    {start final : σ} {actions : List α}
    (reaches : Reaches step other start actions final) (sideStart : side start) :
    (∀ past state, past <+: actions → Reaches step other start past state →
        holds state) ↔
      holds start ∧ Reaches step allowed start actions final := by
  induction reaches with
  | refl =>
      constructor
      · intro along
        exact ⟨along [] start List.nil_prefix (refl start), refl start⟩
      · rintro ⟨initially, -⟩ past state early before
        cases List.prefix_nil.mp early
        cases before.runs
        exact initially
  | @snoc state next actions action before meets taken ih =>
      have sideState : side state :=
        before.invariant sideKept sideStart
      rw [before.snoc_iff taken]
      constructor
      · intro along
        have soFar := ih.mp fun past middle early =>
          along past middle (early.trans (List.prefix_append _ _))
        have here : holds state :=
          along actions state (List.prefix_append _ _) before
        have after : holds next :=
          along _ next List.prefix_rfl (snoc before meets taken)
        exact ⟨soFar.1, soFar.2, (keeps sideState meets here taken).mp after⟩
      · rintro ⟨initially, allowedBefore, allowedHere⟩ past middle early reached
        have along := ih.mpr ⟨initially, allowedBefore⟩
        rcases List.prefix_concat_iff.mp early with whole | inside
        · have same : middle = next := by
            subst whole
            exact Option.some.inj
              (reached.runs.symm.trans (snoc before meets taken).runs)
          subst same
          have here : holds state := along actions state List.prefix_rfl before
          exact (keeps sideState meets here taken).mpr allowedHere
        · exact along past middle inside reached

/-- If every allowed step shows as a step of another system, or not at all, then
a run shows as a run of that system. -/
theorem project {τ β : Type*} {shownStep : τ → β → Option τ} (view : σ → τ)
    (shown : α → Option β)
    (simulates : ∀ {state action next}, allowed state action →
      step state action = some next →
      runActions shownStep (view state) (shown action).toList =
        some (view next))
    {start final : σ} {actions : List α}
    (reaches : Reaches step allowed start actions final) :
    runActions shownStep (view start) (actions.filterMap shown) =
      some (view final) := by
  induction reaches with
  | refl => rfl
  | @snoc _ _ _ action _ meets taken ih =>
      have last : [action].filterMap shown = (shown action).toList := by
        cases found : shown action with
        | none => simp [found]
        | some _ => simp [found]
      rw [List.filterMap_append, runActions_append, ih, Option.bind_some, last]
      exact simulates meets taken

/-- If every allowed step shows as an allowed step of another system, then a run
shows as a run of that system. -/
theorem simulate {τ β : Type*} {shownStep : τ → β → Option τ}
    {shownAllowed : τ → β → Prop} (view : σ → τ) (shown : α → β)
    (simulates : ∀ {state action next}, allowed state action →
      step state action = some next →
      shownAllowed (view state) (shown action) ∧
        shownStep (view state) (shown action) = some (view next))
    {start final : σ} {actions : List α}
    (reaches : Reaches step allowed start actions final) :
    Reaches shownStep shownAllowed (view start) (actions.map shown)
      (view final) := by
  induction reaches with
  | refl => exact refl (view start)
  | snoc _ meets taken ih =>
      obtain ⟨shownMeets, shownTaken⟩ := simulates meets taken
      rw [List.map_append]
      exact snoc ih shownMeets shownTaken

theorem append {start state final : σ} {first second : List α}
    (before : Reaches step allowed start first state)
    (after : Reaches step allowed state second final) :
    Reaches step allowed start (first ++ second) final := by
  induction after with
  | refl =>
      rw [List.append_nil]
      exact before
  | snoc _ meets taken ih =>
      rw [← List.append_assoc]
      exact snoc ih meets taken

theorem single {start final : σ} {action : α} (meets : allowed start action)
    (taken : step start action = some final) :
    Reaches step allowed start [action] final :=
  snoc (refl start) meets taken

theorem cons {start state final : σ} {action : α} {actions : List α}
    (meets : allowed start action) (taken : step start action = some state)
    (after : Reaches step allowed state actions final) :
    Reaches step allowed start (action :: actions) final :=
  (single meets taken).append after

end Reaches

/-- If some run always brings a measure down, then some run brings it to zero. -/
theorem reaches_zero {holds : σ → Prop} (measure : σ → Nat)
    (progress : ∀ {state}, holds state → measure state ≠ 0 →
      ∃ actions next, Reaches step allowed state actions next ∧ holds next ∧
        measure next < measure state)
    {state : σ} (initially : holds state) :
    ∃ actions final, Reaches step allowed state actions final ∧
      holds final ∧ measure final = 0 := by
  induction bound : measure state using Nat.strongRecOn
    generalizing state with
  | _ count ih =>
      by_cases finished : measure state = 0
      · exact ⟨[], state, Reaches.refl state, initially, finished⟩
      · obtain ⟨first, next, reaches, kept, closer⟩ :=
          progress initially finished
        rw [bound] at closer
        obtain ⟨rest, final, after, outcome⟩ := ih _ closer kept rfl
        exact ⟨first ++ rest, final, reaches.append after, outcome⟩

/-- A schedule of actions that meet the condition in every state. -/
theorem reaches_of_always {start final : σ} {actions : List α}
    (always : ∀ action ∈ actions, ∀ state, allowed state action)
    (ran : runActions step start actions = some final) :
    Reaches step allowed start actions final := by
  induction actions generalizing start with
  | nil =>
      cases ran
      exact Reaches.refl _
  | cons action actions ih =>
      obtain ⟨next, taken, rest⟩ := Option.bind_eq_some_iff.mp ran
      have others : ∀ other ∈ actions, ∀ state, allowed state other :=
        fun other member => always other (List.mem_cons_of_mem action member)
      exact Reaches.cons (always action (by simp) start) taken (ih others rest)

/-- A schedule whose condition has been checked on the way, by a test that is
sound where an invariant holds. -/
theorem reaches_of_checked {holds : σ → Prop} {check : σ → α → Bool}
    (sound : ∀ {state action}, holds state → check state action →
      allowed state action)
    (kept : ∀ {state action next}, holds state → check state action →
      step state action = some next → holds next)
    {start final : σ} {actions : List α} (initially : holds start)
    (ran : runActions
      (fun state action => if check state action then step state action else none)
      start actions = some final) :
    Reaches step allowed start actions final := by
  induction actions generalizing start with
  | nil =>
      cases ran
      exact Reaches.refl _
  | cons action actions ih =>
      obtain ⟨next, taken, rest⟩ := Option.bind_eq_some_iff.mp ran
      dsimp only at taken
      split at taken
      next checked =>
        exact Reaches.cons (sound initially checked) taken
          (ih (kept initially checked taken) rest)
      next => cases taken

/-- A loop ends: while it is not done, every one of its actions makes progress,
and the measure bounds the number of rounds. -/
theorem runActions_ends {holds done : σ → Prop} {round : α → Prop}
    (measure : σ → Nat)
    (progress : ∀ {state action}, holds state → ¬ done state → round action →
      ∃ next, step state action = some next ∧ holds next ∧
        (done next ∨ measure next < measure state))
    {state : σ} (initially : holds state) {actions : List α}
    (rounds : ∀ action ∈ actions, round action)
    (enough : measure state < actions.length) :
    ∃ count last, runActions step state (actions.take count) = some last ∧
      holds last ∧ done last := by
  induction actions generalizing state with
  | nil => exact absurd enough (Nat.not_lt_zero _)
  | cons action actions ih =>
      by_cases finished : done state
      · exact ⟨0, state, rfl, initially, finished⟩
      · obtain ⟨next, taken, kept, finishedNext | closer⟩ :=
          progress initially finished (rounds action (by simp))
        · refine ⟨1, next, ?_, kept, finishedNext⟩
          rw [List.take_succ_cons, runActions, taken]
          rfl
        · have fewer : measure next < actions.length := by
            rw [List.length_cons] at enough
            omega
          obtain ⟨count, last, ran, outcome⟩ := ih kept
            (fun other member => rounds other (List.mem_cons_of_mem _ member))
            fewer
          refine ⟨count + 1, last, ?_, outcome⟩
          rw [List.take_succ_cons, runActions, taken]
          exact ran

/-- Items can be delivered to the end if each can be delivered. -/
theorem runActions_deliver {γ : Type*} {ready : List γ → σ → Prop}
    {good : α → Prop} (shown : α → Option γ)
    (each : ∀ {item items state}, ready (item :: items) state →
      ∃ actions next, runActions step state actions = some next ∧
        (∀ action ∈ actions, good action) ∧
        actions.filterMap shown = [item] ∧ ready items next)
    {items : List γ} {state : σ} (initially : ready items state) :
    ∃ actions final, runActions step state actions = some final ∧
      (∀ action ∈ actions, good action) ∧
      actions.filterMap shown = items ∧ ready [] final := by
  induction items generalizing state with
  | nil => exact ⟨[], state, rfl, by simp, rfl, initially⟩
  | cons item items ih =>
      obtain ⟨first, next, ranFirst, goodFirst, shownFirst, readyNext⟩ :=
        each initially
      obtain ⟨rest, final, ranRest, goodRest, shownRest, readyFinal⟩ :=
        ih readyNext
      refine ⟨first ++ rest, final, ?_, ?_, ?_, readyFinal⟩
      · rw [runActions_append, ranFirst]
        exact ranRest
      · intro action member
        rcases List.mem_append.mp member with early | late
        · exact goodFirst action early
        · exact goodRest action late
      · rw [List.filterMap_append, shownFirst, shownRest]
        rfl

/-- Without a condition, reaching is running the schedule. -/
theorem reaches_of_runActions {start final : σ} {actions : List α}
    (ran : runActions step start actions = some final) :
    Reaches step (fun _ _ => True) start actions final :=
  reaches_of_always (fun _ _ _ => trivial) ran

end Runs

end RustiCache
