import RustiCache.ActionRuns
import Mathlib.Logic.Function.Basic

/-!
# Atomic objects

Clients call an object and it returns answers.  An atomic object serves each
call in one indivisible step that lies between the call and the return, so what
its clients see is explained by the order of those steps.  A system is
linearizable if its clients see nothing that the clients of the atomic object
could not have seen.  The simulation rule derives that from one step at a time.
-/

namespace RustiCache

/-- What can be seen of an object from outside. -/
inductive ObjectEvent (ι Op Answer Env : Type) where
  | call (client : ι) (op : Op)
  | ret (client : ι) (answer : Answer)
  | environment (event : Env)

/-- How far the object is with a client's call. -/
inductive ClientCall (Op Answer : Type) where
  | idle
  | called (op : Op)
  | served (answer : Answer)

/-- The operations of an object, what it sees of its environment, and the
changes that it may make on its own. -/
structure AtomicSpec (σ Op Answer Env : Type) where
  serves : σ → Op → Answer → σ → Prop
  observes : σ → Env → σ → Prop
  moves : σ → σ → Prop

structure AtomicObject (ι σ Op Answer : Type) where
  state : σ
  clients : ι → ClientCall Op Answer

section Runs

variable {ι σ Op Answer Env : Type} [DecidableEq ι]

/-- The object after a client's call has got further. -/
def AtomicObject.put (object : AtomicObject ι σ Op Answer) (client : ι)
    (progress : ClientCall Op Answer) (state : σ) :
    AtomicObject ι σ Op Answer :=
  ⟨state, Function.update object.clients client progress⟩

/-- A run of the atomic object with what is seen of it.  Serving a call and the
object's own moves are not seen. -/
inductive AtomicRun (spec : AtomicSpec σ Op Answer Env) :
    AtomicObject ι σ Op Answer → List (ObjectEvent ι Op Answer Env) →
      AtomicObject ι σ Op Answer → Prop where
  | refl (object : AtomicObject ι σ Op Answer) : AtomicRun spec object [] object
  | call {start object : AtomicObject ι σ Op Answer}
      {seen : List (ObjectEvent ι Op Answer Env)} {client : ι} {op : Op}
      (before : AtomicRun spec start seen object)
      (idle : object.clients client = .idle) :
      AtomicRun spec start (seen ++ [.call client op])
        (object.put client (.called op) object.state)
  | serve {start object : AtomicObject ι σ Op Answer}
      {seen : List (ObjectEvent ι Op Answer Env)} {client : ι} {op : Op}
      {answer : Answer} {next : σ}
      (before : AtomicRun spec start seen object)
      (called : object.clients client = .called op)
      (serves : spec.serves object.state op answer next) :
      AtomicRun spec start seen (object.put client (.served answer) next)
  | ret {start object : AtomicObject ι σ Op Answer}
      {seen : List (ObjectEvent ι Op Answer Env)} {client : ι} {answer : Answer}
      (before : AtomicRun spec start seen object)
      (served : object.clients client = .served answer) :
      AtomicRun spec start (seen ++ [.ret client answer])
        (object.put client .idle object.state)
  | observe {start object : AtomicObject ι σ Op Answer}
      {seen : List (ObjectEvent ι Op Answer Env)} {event : Env} {next : σ}
      (before : AtomicRun spec start seen object)
      (observes : spec.observes object.state event next) :
      AtomicRun spec start (seen ++ [.environment event])
        { object with state := next }
  | move {start object : AtomicObject ι σ Op Answer}
      {seen : List (ObjectEvent ι Op Answer Env)} {next : σ}
      (before : AtomicRun spec start seen object)
      (moves : spec.moves object.state next) :
      AtomicRun spec start seen { object with state := next }

theorem AtomicRun.append {spec : AtomicSpec σ Op Answer Env}
    {start middle final : AtomicObject ι σ Op Answer}
    {first second : List (ObjectEvent ι Op Answer Env)}
    (before : AtomicRun spec start first middle)
    (after : AtomicRun spec middle second final) :
    AtomicRun spec start (first ++ second) final := by
  induction after with
  | refl =>
      rw [List.append_nil]
      exact before
  | call _ idle ih =>
      rw [← List.append_assoc]
      exact .call ih idle
  | serve _ called serves ih => exact .serve ih called serves
  | ret _ served ih =>
      rw [← List.append_assoc]
      exact .ret ih served
  | observe _ observes ih =>
      rw [← List.append_assoc]
      exact .observe ih observes
  | move _ moves ih => exact .move ih moves

/-- The simulation rule: if whatever a step of a system shows can be shown by
the atomic object, then so can whatever a run shows. -/
theorem Reaches.linearizable {τ α : Type*} {step : τ → α → Option τ}
    {allowed : τ → α → Prop} {spec : AtomicSpec σ Op Answer Env}
    (seen : τ → List (ObjectEvent ι Op Answer Env))
    {related : τ → AtomicObject ι σ Op Answer → Prop}
    (simulates : ∀ {state action next object}, related state object →
      allowed state action → step state action = some next →
      ∃ shown object', AtomicRun spec object shown object' ∧
        seen next = seen state ++ shown ∧ related next object')
    {start final : τ} {actions : List α} {first : AtomicObject ι σ Op Answer}
    (reaches : Reaches step allowed start actions final)
    (initially : related start first) (unseen : seen start = []) :
    ∃ last, AtomicRun spec first (seen final) last ∧ related final last := by
  induction reaches with
  | refl =>
      rw [unseen]
      exact ⟨first, .refl first, initially⟩
  | snoc _ meets taken ih =>
      obtain ⟨object, soFar, relatedNow⟩ := ih
      obtain ⟨shown, next, further, appended, relatedNext⟩ :=
        simulates relatedNow meets taken
      rw [appended]
      exact ⟨next, soFar.append further, relatedNext⟩

end Runs

end RustiCache
