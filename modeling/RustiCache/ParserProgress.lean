import RustiCache.ConnectionReception
import RustiCache.LoopRounds
import RustiCache.ReplicaReception

/-!
# Parsing ends

An array header may announce any number of elements, whatever the buffer holds.
The element loop still ends early: every element takes three bytes, and the
first one that is not there ends it.  The calls of the parser form a finite tree
for this reason, and so do the loops that call it, on the connection of a client
and on the stream from a master.
-/

namespace RustiCache

namespace Value

/-- The buffers that the element loop calls the parser on, one for each of its
iterations. -/
def loopCalls (parse : Bytes → ParseRun) : Nat → Bytes → List Bytes
  | 0, _ => []
  | count + 1, temp =>
      temp ::
        match (parse temp).result with
        | .ok (some _) => loopCalls parse count (parse temp).rest
        | _ => []

/-- The buffers that the parser calls itself on. -/
def elementCalls (parse : Bytes → ParseRun) (src : Bytes) : List Bytes :=
  match src with
  | [] => []
  | first :: _ =>
      if first = 42 then
        match lineLength src with
        | .ok (some (count, lineLen)) =>
            -- A negative count does not get to the loop.
            loopCalls parse count.toNat (src.drop lineLen)
        | _ => []
      else
        []

/-- A call of the parser ends, if all the calls that it makes end.  The answers
of these calls are all that the function `parse` is needed for. -/
inductive Ends : Bytes → ParseRun → Prop where
  | intro {src : Bytes} {parse : Bytes → ParseRun}
      (calls : ∀ part ∈ elementCalls parse src, Ends part (parse part)) :
      Ends src (parseFrame parse src)

section Calls

variable {first second parse : Bytes → ParseRun}

theorem loopCalls_shorter (shrinks : ∀ src, (parse src).rest <:+ src)
    {count : Nat} {temp part : Bytes}
    (called : part ∈ loopCalls parse count temp) :
    part.length ≤ temp.length := by
  induction count generalizing temp with
  | zero => cases called
  | succ count ih =>
      rcases List.mem_cons.mp called with rfl | later
      · exact le_rfl
      · split at later
        · exact (ih later).trans (shrinks temp).length_le
        · cases later

/-- Every nested call is made on fewer bytes. -/
theorem elementCalls_shorter (shrinks : ∀ src, (parse src).rest <:+ src)
    {src part : Bytes} (called : part ∈ elementCalls parse src) :
    part.length < src.length := by
  cases src with
  | nil => cases called
  | cons byte src =>
      rw [elementCalls] at called
      split at called
      next =>
        split at called
        next count lineLen header =>
          have taken := lineLength_consumed header
          have inside := loopCalls_shorter shrinks called
          rw [List.length_drop] at inside
          omega
        next => cases called
      next => cases called

/-- The loop does as many iterations as there is room for elements, and at most
one more. -/
theorem loopCalls_length
    (takes : ∀ {src value}, (parse src).result = .ok (some value) →
      (parse src).rest.length + 3 ≤ src.length)
    (count : Nat) (temp : Bytes) :
    (loopCalls parse count temp).length ≤ temp.length / 3 + 1 := by
  induction count generalizing temp with
  | zero => exact Nat.zero_le _
  | succ count ih =>
      rw [loopCalls, List.length_cons]
      cases answer : (parse temp).result with
      | error reason => exact Nat.le_add_left _ _
      | ok found =>
          cases found with
          | none => exact Nat.le_add_left _ _
          | some element =>
              have shorter := takes answer
              have others := ih (parse temp).rest
              dsimp only
              omega

theorem elementCalls_length
    (takes : ∀ {src value}, (parse src).result = .ok (some value) →
      (parse src).rest.length + 3 ≤ src.length)
    {src : Bytes} {count : Int} {lineLen : Nat}
    (header : lineLength src = .ok (some (count, lineLen))) :
    (elementCalls parse src).length ≤ (src.length - lineLen) / 3 + 1 := by
  cases src with
  | nil => exact Nat.zero_le _
  | cons byte src =>
      rw [elementCalls, header]
      split
      · have rounds := loopCalls_length takes count.toNat
          ((byte :: src).drop lineLen)
        rwa [List.length_drop] at rounds
      · exact Nat.zero_le _

/-- The loop depends on the answers to its own calls only. -/
theorem parseElements_of_calls {count : Nat} {temp : Bytes}
    (agree : ∀ part ∈ loopCalls first count temp, first part = second part) :
    parseElements first count temp = parseElements second count temp := by
  induction count generalizing temp with
  | zero => rfl
  | succ count ih =>
      have here : first temp = second temp := agree temp (by simp [loopCalls])
      rw [parseElements, parseElements, ← here]
      cases answer : (first temp).result with
      | error reason => rfl
      | ok found =>
          cases found with
          | none => rfl
          | some element =>
              have others := @ih (first temp).rest fun part called =>
                agree part (by simp [loopCalls, answer, called])
              dsimp only
              rw [others]

theorem parseFrame_of_calls {src : Bytes}
    (agree : ∀ part ∈ elementCalls first src, first part = second part) :
    parseFrame first src = parseFrame second src := by
  cases src with
  | nil => rfl
  | cons byte src =>
      by_cases star : byte = 42
      · have arrays : parseArray first (byte :: src) =
            parseArray second (byte :: src) := by
          unfold parseArray
          cases header : lineLength (byte :: src) with
          | error reason => rfl
          | ok found =>
              cases found with
              | none => rfl
              | some announced =>
                  obtain ⟨count, lineLen⟩ := announced
                  rw [elementCalls, if_pos star, header] at agree
                  dsimp only
                  rw [parseElements_of_calls agree]
        simp only [parseFrame, arrays]
      · simp only [parseFrame, if_neg star]

end Calls

/-- Parsing ends on every buffer.  The induction is on the number of bytes, which
every nested call has fewer of. -/
theorem ends_parseRun (src : Bytes) : Ends src (parseRun src) := by
  induction size : src.length using Nat.strong_induction_on generalizing src with
  | _ size ih =>
      rw [parseRun_eq]
      apply Ends.intro
      intro part called
      have shorter := elementCalls_shorter parseRun_rest called
      exact ih part.length (by omega) part rfl

theorem Ends.eq_parseRun {src : Bytes} {run : ParseRun} (ends : Ends src run) :
    run = parseRun src := by
  induction ends with
  | intro calls ih => rw [parseRun_eq, parseFrame_of_calls ih]

/-- A frame has at least three bytes. -/
theorem attempt_consumed {src : Bytes} {value : Value} {consumed : Nat}
    (complete : attempt src = .complete value consumed) : 3 ≤ consumed := by
  obtain ⟨-, parsed, rfl⟩ := attempt_complete_iff.mp complete
  have enough := parseRun_consumed parsed
  omega

end Value

namespace Session

variable {hasher : String → UInt64}

/-- The event is a round of the drain loop. -/
def isRound : SessionEvent hasher → Bool
  | .process _ => true
  | _ => false

/-- The drain loop ends: rounds alone bring it to its end, and whatever else
happens in between, there is a bound on how many it takes. -/
def DrainEnds (config : ConnectionConfig) (session : Session hasher) : Prop :=
  (∀ moments : List Moment,
    session.connection.buffer.length / 3 < moments.length →
    ∃ count last,
      runActions (step config) session
          ((moments.map SessionEvent.process).take count) = some last ∧
        last.connection.phase ≠ .draining) ∧
    ∀ events last,
      Reaches (step config) (fun state _ => state.connection.phase = .draining)
          session events last →
        events.countP isRound ≤ session.connection.buffer.length / 3 + 1

theorem readLoop_atLeast : Connection.readLoop.AtLeast 3 :=
  Value.attempt_consumed

/-- Inside the drain loop a round is a round of the reader, and nothing else
touches the buffer unless it closes the connection. -/
theorem reader_of_step {config : ConnectionConfig}
    {session next : Session hasher} {event : SessionEvent hasher}
    (drains : session.connection.reader.phase = .draining)
    (taken : session.step config event = some next) :
    if isRound event then
      next.connection.reader =
        Connection.readLoop.round session.connection.reader
    else
      next.connection.reader = session.connection.reader ∨
        next.connection.reader.phase ≠ .draining := by
  have draining := ConnectionPhase.ofReader_eq_draining.mp drains
  rcases transition_of_step taken with
    server | - | waiting | ⟨waiting, -, -⟩ | ⟨chunk, waiting⟩ | ⟨moment, -⟩
  · exact Or.inl rfl
  · exact Or.inr nofun
  · rw [draining] at waiting
    cases waiting
  · rw [draining] at waiting
    cases waiting
  · rw [draining] at waiting
    cases waiting
  · exact Connection.reader_drain config moment session.server draining

theorem step_process (config : ConnectionConfig) {session : Session hasher}
    (drains : session.connection.reader.phase = .draining) (moment : Moment) :
    ∃ next, session.step config (.process moment) = some next ∧
      next.connection.reader =
        Connection.readLoop.round session.connection.reader := by
  have draining := ConnectionPhase.ofReader_eq_draining.mp drains
  exact ⟨_, if_pos draining,
    Connection.reader_drain config moment session.server draining⟩

theorem drainEnds (config : ConnectionConfig) (session : Session hasher) :
    session.DrainEnds config := by
  constructor
  · intro moments enough
    obtain ⟨count, last, ran, settled⟩ := ReadLoop.rounds_end
      (fun state : Session hasher => state.connection.reader)
      SessionEvent.process (by decide) readLoop_atLeast (step_process config)
      enough
    refine ⟨count, last, ran, ?_⟩
    intro draining
    exact settled (ConnectionPhase.ofReader_eq_draining.mpr draining)
  · intro events last reaches
    exact ReadLoop.rounds_le
      (fun state : Session hasher => state.connection.reader) (by decide)
      readLoop_atLeast reaches reader_of_step
      ConnectionPhase.ofReader_eq_draining.mpr

end Session

namespace ReplicaStream

variable {hasher : String → UInt64}

/-- The event is a round of the loop over the buffer. -/
def isRound : StreamEvent hasher → Bool
  | .process _ => true
  | _ => false

/-- The loop over the buffer ends, as on a connection. -/
def DrainEnds (state : ReplicaStream hasher) : Prop :=
  (∀ moments : List Moment, state.buffer.length / 3 < moments.length →
    ∃ count last,
      runActions step state
          ((moments.map StreamEvent.process).take count) = some last ∧
        last.phase ≠ .draining) ∧
    ∀ events last,
      Reaches step (fun state _ => state.phase = .draining) state events last →
        events.countP isRound ≤ state.buffer.length / 3 + 1

theorem readLoop_atLeast : readLoop.AtLeast 3 :=
  Value.attempt_consumed

theorem reader_of_step {state next : ReplicaStream hasher}
    {event : StreamEvent hasher} (drains : state.reader.phase = .draining)
    (taken : state.step event = some next) :
    if isRound event then next.reader = readLoop.round state.reader
    else next.reader = state.reader ∨ next.reader.phase ≠ .draining := by
  have draining := StreamPhase.ofReader_eq_draining.mp drains
  cases transition_of_step taken with
  | process moment => exact reader_drain moment draining
  | read chunk reading =>
      rw [draining] at reading
      cases reading
  | fail => exact Or.inr nofun
  | others server => exact Or.inl rfl

theorem step_process {state : ReplicaStream hasher}
    (drains : state.reader.phase = .draining) (moment : Moment) :
    ∃ next, state.step (.process moment) = some next ∧
      next.reader = readLoop.round state.reader := by
  have draining := StreamPhase.ofReader_eq_draining.mp drains
  exact ⟨_, if_pos draining, reader_drain moment draining⟩

theorem drainEnds (state : ReplicaStream hasher) : state.DrainEnds := by
  constructor
  · intro moments enough
    obtain ⟨count, last, ran, settled⟩ := ReadLoop.rounds_end
      (fun state : ReplicaStream hasher => state.reader) StreamEvent.process
      (by decide) readLoop_atLeast step_process enough
    refine ⟨count, last, ran, ?_⟩
    intro draining
    exact settled (StreamPhase.ofReader_eq_draining.mpr draining)
  · intro events last reaches
    exact ReadLoop.rounds_le
      (fun state : ReplicaStream hasher => state.reader) (by decide)
      readLoop_atLeast reaches reader_of_step
      StreamPhase.ofReader_eq_draining.mpr

end ReplicaStream

/-- Parsing makes progress and ends.  Every nested call is made on fewer bytes,
whatever count has been announced, so the tree of calls is finite; a value takes
at least three bytes, and the element loop does at most one iteration more than
there is room for elements; the loops over the buffers of a connection and of a
replica end on any content. -/
theorem parsing_ends (hasher : String → UInt64) (config : ConnectionConfig) :
    (∀ src part : Bytes, part ∈ Value.elementCalls Value.parseRun src →
      part.length < src.length) ∧
    (∀ src : Bytes, Value.Ends src (Value.parseRun src) ∧
      ∀ run, Value.Ends src run → run = Value.parseRun src) ∧
    (∀ (src : Bytes) (value : Value), (Value.parse src).1 = .ok (some value) →
      (Value.parse src).2.length + 3 ≤ src.length) ∧
    (∀ (src : Bytes) (count : Int) (lineLen : Nat),
      Value.lineLength src = .ok (some (count, lineLen)) →
      (Value.elementCalls Value.parseRun src).length ≤
        (src.length - lineLen) / 3 + 1) ∧
    (∀ session : Session hasher, session.DrainEnds config) ∧
    ∀ state : ReplicaStream hasher, state.DrainEnds := by
  refine ⟨?_, ?_, ?_, ?_, Session.drainEnds config, ReplicaStream.drainEnds⟩
  · intro src part called
    exact Value.elementCalls_shorter Value.parseRun_rest called
  · intro src
    exact ⟨Value.ends_parseRun src, fun run ends => ends.eq_parseRun⟩
  · intro src value parsed
    exact Value.parseRun_consumed parsed
  · intro src count lineLen header
    exact Value.elementCalls_length Value.parseRun_consumed header

end RustiCache
