import RustiCache.RespDecoder

/-!
# The parser does not look ahead

A value at the front of a buffer is decided by its own bytes: the parser finds it
even if nothing follows them.  So a frame that a read loop has cut off its buffer
is accepted on its own.
-/

namespace RustiCache

namespace Value

theorem getLine_front {front rest line : Bytes} {consumed : Nat}
    (found : getLine (front ++ rest) = some (line, consumed))
    (within : consumed ≤ front.length) :
    getLine front = some (line, consumed) := by
  induction front using getLine.induct generalizing line consumed with
  | case1 =>
      have bounds := getLine_spec found
      simp only [List.length_nil] at within
      omega
  | case2 =>
      have bounds := getLine_spec found
      simp only [List.length_cons, List.length_nil] at within
      omega
  | case3 first second tail terminator =>
      simpa [getLine, terminator] using found
  | case4 first second tail ordinary ih =>
      simp only [List.cons_append, getLine, if_neg ordinary,
        Option.map_eq_some_iff, Prod.mk.injEq] at found
      obtain ⟨⟨part, length⟩, partFound, rfl, rfl⟩ := found
      simp only [List.length_cons] at within
      have shorter := ih partFound (by rw [List.length_cons]; omega)
      rw [getLine, if_neg ordinary, shorter]
      rfl

theorem lineText_front {front rest : Bytes} {content : String} {consumed : Nat}
    (found : lineText (front ++ rest) = .ok (some (content, consumed)))
    (within : consumed ≤ front.length) :
    lineText front = .ok (some (content, consumed)) := by
  unfold lineText at found ⊢
  split at found
  next => cases found
  next line length lineFound =>
    split at found
    next => cases found
    next text decoded =>
      cases found
      rw [getLine_front lineFound within]
      dsimp only
      rw [decoded]

theorem lineLength_front {front rest : Bytes} {length : Int} {consumed : Nat}
    (found : lineLength (front ++ rest) = .ok (some (length, consumed)))
    (within : consumed ≤ front.length) :
    lineLength front = .ok (some (length, consumed)) := by
  unfold lineLength at found ⊢
  split at found
  next => cases found
  next => cases found
  next content lineLen textFound =>
    split at found
    next => cases found
    next number parsed =>
      cases found
      rw [lineText_front textFound within]
      dsimp only
      rw [parsed]

/-- A run that finds a value and leaves at least `rest` decides the buffer
without `rest`. -/
def DecidedBefore (parse : Bytes → ParseRun) (front rest : Bytes) : Prop :=
  ∀ value, (parse (front ++ rest)).result = .ok (some value) →
    rest.length ≤ (parse (front ++ rest)).rest.length →
      (parse front).result ≠ .ok none

theorem parseLine_decides (build : String → Except RespParseError Value)
    (front rest : Bytes) : DecidedBefore (parseLine build) front rest := by
  intro value parsed left
  unfold parseLine at parsed left ⊢
  cases found : lineText (front ++ rest) with
  | error reason => simp [found] at parsed
  | ok line =>
      cases line with
      | none => simp [found] at parsed
      | some line =>
          obtain ⟨content, consumed⟩ := line
          simp only [found] at parsed left
          cases built : build content with
          | error reason => simp [built] at parsed
          | ok item =>
              have bounds := lineText_consumed found
              simp only [built, List.length_drop, List.length_append] at left
              rw [List.length_append] at bounds
              rw [lineText_front found (by omega)]
              simp [built]

theorem parseBulkString_decides (front rest : Bytes) :
    DecidedBefore parseBulkString front rest := by
  intro value parsed left
  unfold parseBulkString at parsed left ⊢
  cases found : lineLength (front ++ rest) with
  | error reason => simp [found] at parsed
  | ok header =>
      cases header with
      | none => simp [found] at parsed
      | some header =>
          obtain ⟨length, lineLen⟩ := header
          have bounds := lineLength_consumed found
          simp only [found] at parsed left
          rw [List.length_append] at bounds
          by_cases null : length = -1
          · simp only [if_pos null, List.length_drop, List.length_append]
              at left
            rw [lineLength_front found (by omega)]
            simp [null]
          · by_cases negative : length < 0
            · simp [null, negative] at parsed
            · simp only [if_neg null, if_neg negative] at parsed left
              split_ifs at parsed left with short unterminated
              · cases parsed
              · -- the header, the payload and its end lie before `rest`
                simp only [List.length_drop, List.length_append] at left short
                rw [lineLength_front found (by omega)]
                simp only [if_neg null, if_neg negative]
                rw [if_neg (by omega)]
                split <;> simp

theorem parseElements_decides {rest : Bytes} (count : Nat) (front : Bytes)
    (decides : ∀ part : Bytes, part.length ≤ front.length →
      DecidedBefore parseRun part rest) {items : List Value}
    (parsed : (parseElements parseRun count (front ++ rest)).result =
      .ok (some items))
    (left : rest.length ≤
      (parseElements parseRun count (front ++ rest)).temp.length) :
    (parseElements parseRun count front).result ≠ .ok none := by
  induction count generalizing front items with
  | zero => simp [parseElements]
  | succ count ih =>
      simp only [parseElements] at parsed left ⊢
      cases first : (parseRun (front ++ rest)).result with
      | error reason => simp [first] at parsed
      | ok found =>
          cases found with
          | none => simp [first] at parsed
          | some element =>
              simp only [first] at parsed left
              have kept := (parseElements_temp parseRun_rest count
                (parseRun (front ++ rest)).rest).length_le
              have decided := decides front le_rfl element first
                (left.trans kept)
              have extended := parseRun_append front rest
              unfold ParseRun.ExtendsTo at extended
              cases short : (parseRun front).result with
              | error reason => simp
              | ok value =>
                  cases value with
                  | none => exact absurd short decided
                  | some value =>
                      rw [short] at extended
                      dsimp only at extended
                      rw [extended] at parsed left
                      have fits := (parseRun_rest front).length_le
                      cases others : (parseElements parseRun count
                          ((parseRun front).rest ++ rest)).result with
                      | error reason => simp [others, Except.map] at parsed
                      | ok tail =>
                          cases tail with
                          | none => simp [others, Except.map] at parsed
                          | some tail =>
                              have rest := ih _ (fun part within =>
                                decides part (within.trans fits)) others left
                              dsimp only
                              cases found : (parseElements parseRun count
                                  (parseRun front).rest).result with
                              | error reason => simp [Except.map]
                              | ok tail =>
                                  cases tail with
                                  | none => exact absurd found rest
                                  | some tail => simp [Except.map]

theorem parseArray_decides {front rest : Bytes}
    (decides : ∀ part : Bytes, part.length < front.length →
      DecidedBefore parseRun part rest) :
    DecidedBefore (parseArray parseRun) front rest := by
  intro value parsed left
  unfold parseArray at parsed left ⊢
  cases found : lineLength (front ++ rest) with
  | error reason => simp [found] at parsed
  | ok header =>
      cases header with
      | none => simp [found] at parsed
      | some header =>
          obtain ⟨count, lineLen⟩ := header
          have bounds := lineLength_consumed found
          simp only [found] at parsed left
          rw [List.length_append] at bounds
          by_cases null : count = -1
          · simp only [if_pos null, List.length_drop, List.length_append]
              at left
            rw [lineLength_front found (by omega)]
            simp [null]
          · by_cases negative : count < 0
            · simp [null, negative] at parsed
            · simp only [if_neg null, if_neg negative] at parsed left
              cases elements : (parseElements parseRun count.toNat
                  ((front ++ rest).drop lineLen)).result with
              | error reason => simp [elements] at parsed
              | ok items =>
                  cases items with
                  | none => simp [elements] at parsed
                  | some items =>
                      simp only [elements, List.length_drop,
                        List.length_append] at left
                      have kept := (parseElements_temp parseRun_rest
                        count.toNat ((front ++ rest).drop lineLen)).length_le
                      rw [List.length_drop, List.length_append] at kept
                      have within : lineLen ≤ front.length := by omega
                      rw [List.drop_append_of_le_length within] at elements left
                      have decided := parseElements_decides count.toNat
                        (front.drop lineLen) (fun part fits =>
                          decides part (by
                            rw [List.length_drop] at fits
                            omega)) elements (by omega)
                      rw [lineLength_front found within]
                      simp only [if_neg null, if_neg negative]
                      split
                      next => simp
                      next undecided => exact absurd undecided decided
                      next => simp

theorem parseRun_decides (front rest : Bytes) :
    DecidedBefore parseRun front rest := by
  induction size : front.length using Nat.strongRecOn generalizing front with
  | ind length ih =>
      subst size
      intro value parsed left
      rw [parseRun_eq] at parsed left ⊢
      cases front with
      | nil =>
          -- the value would have to come out of `rest`, which is left over
          rw [List.nil_append, ← parseRun_eq] at parsed left
          have enough := parseRun_consumed parsed
          omega
      | cons first front =>
          have decides : ∀ part : Bytes, part.length < (first :: front).length →
              DecidedBefore parseRun part rest := fun part shorter =>
            ih part.length shorter part rfl
          simp only [parseFrame, List.cons_append] at parsed left ⊢
          rw [← List.cons_append] at parsed left
          split_ifs at parsed left ⊢
          · exact parseLine_decides _ _ _ value parsed left
          · exact parseLine_decides _ _ _ value parsed left
          · exact parseLine_decides _ _ _ value parsed left
          · exact parseBulkString_decides _ _ value parsed left
          · exact parseArray_decides decides value parsed left

/-- A frame that has been cut off a buffer is accepted on its own. -/
theorem accepts_take {buffer : Bytes} {value : Value} {consumed : Nat}
    (complete : attempt buffer = .complete value consumed) :
    decoder.Accepts (buffer.take consumed) value := by
  have bounds := attempt_bounds complete
  obtain ⟨-, parsed, counted⟩ := attempt_complete_iff.mp complete
  have whole : buffer.take consumed ++ buffer.drop consumed = buffer :=
    List.take_append_drop consumed buffer
  have shrinks := (parseRun_rest buffer).length_le
  have decided := parseRun_decides (buffer.take consumed)
    (buffer.drop consumed) value (by rw [whole]; exact parsed) (by
      rw [whole, List.length_drop]
      omega)
  change attempt (buffer.take consumed) = _
  cases found : attempt (buffer.take consumed) with
  | complete other length =>
      have again := attempt_complete_append (buffer.drop consumed) found
      rw [whole, complete] at again
      simp only [Attempt.complete.injEq] at again
      rw [← again.1, ← again.2, List.length_take, Nat.min_eq_left bounds.2]
  | incomplete =>
      unfold attempt at found
      split at found
      next => cases found
      next =>
        split at found
        next => cases found
        next undecided => exact absurd undecided decided
        next => cases found
  | malformed fault =>
      have again := attempt_malformed_append (buffer.drop consumed) found
      rw [whole, complete] at again
      cases again

theorem attempt_take {buffer : Bytes} {value : Value} {consumed : Nat}
    (complete : attempt buffer = .complete value consumed) :
    attempt (buffer.take consumed) = .complete value consumed := by
  have accepted : attempt (buffer.take consumed) =
      .complete value (buffer.take consumed).length :=
    accepts_take complete
  rwa [List.length_take_of_le (attempt_bounds complete).2] at accepted

end Value

end RustiCache
