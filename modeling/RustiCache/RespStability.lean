import RustiCache.RespConsumption

/-!
# The parser under arrival of more bytes

A value or an error found at the front of a buffer is found again in every
longer buffer.  The proof follows the parser: a line, once terminated, is the
same line in a longer buffer, and the element loop of an array inherits the
property from the parser of one element.
-/

namespace RustiCache

namespace Value

/-- How a run on a buffer determines the run after `extra` has arrived. -/
def ParseRun.ExtendsTo (short : ParseRun) (extra : Bytes) (long : ParseRun) :
    Prop :=
  match short.result with
  | .ok (some _) =>
      long = ⟨short.result, short.rest ++ extra, short.reserved⟩
  | .ok none => short.reserved <+: long.reserved
  | .error _ =>
      long.result = short.result ∧ long.reserved = short.reserved

theorem lineText_append {src : Bytes} (extra : Bytes)
    (settled : lineText src ≠ .ok none) :
    lineText (src ++ extra) = lineText src := by
  unfold lineText at settled ⊢
  cases found : getLine src with
  | none => simp [found] at settled
  | some line =>
      obtain ⟨line, consumed⟩ := line
      rw [getLine_append found extra]

theorem lineLength_append {src : Bytes} (extra : Bytes)
    (settled : lineLength src ≠ .ok none) :
    lineLength (src ++ extra) = lineLength src := by
  have textSettled : lineText src ≠ .ok none := by
    intro undecided
    simp [lineLength, undecided] at settled
  simp only [lineLength, lineText_append extra textSettled]

theorem parseLine_append (build : String → Except RespParseError Value)
    (src extra : Bytes) :
    (parseLine build src).ExtendsTo extra
      (parseLine build (src ++ extra)) := by
  simp only [parseLine, ParseRun.ExtendsTo]
  cases found : lineText src with
  | error reason =>
      rw [lineText_append extra (by simp [found]), found]
      exact ⟨rfl, rfl⟩
  | ok line =>
      cases line with
      | none => exact List.nil_prefix
      | some line =>
          rw [lineText_append extra (by simp [found]), found]
          have bounds := lineText_consumed found
          cases built : build line.1 with
          | error reason => simp only [built, and_self]
          | ok value =>
              simp only [built, List.drop_append_of_le_length bounds.2]

theorem parseBulkString_append (src extra : Bytes) :
    (parseBulkString src).ExtendsTo extra
      (parseBulkString (src ++ extra)) := by
  simp only [parseBulkString, ParseRun.ExtendsTo]
  cases found : lineLength src with
  | error reason =>
      rw [lineLength_append extra (by simp [found]), found]
      exact ⟨rfl, rfl⟩
  | ok header =>
      cases header with
      | none => exact List.nil_prefix
      | some header =>
          obtain ⟨length, lineLen⟩ := header
          rw [lineLength_append extra (by simp [found]), found]
          have bounds := (lineLength_consumed found).2
          dsimp only
          by_cases null : length = -1
          · simp only [if_pos null, List.drop_append_of_le_length bounds]
          · by_cases negative : length < 0
            · simp only [if_neg null, if_pos negative, and_self]
            · by_cases short : src.length < lineLen + length.toNat + 2
              · simp only [if_neg null, if_neg negative, if_pos short]
                exact List.nil_prefix
              · -- The payload and two more bytes lie inside the old buffer.
                have longEnough : ¬ (src ++ extra).length <
                    lineLen + length.toNat + 2 := by
                  rw [List.length_append]
                  omega
                have payloadBound :
                    length.toNat ≤ (src.drop lineLen).length := by
                  rw [List.length_drop]
                  omega
                have tailBound :
                    2 ≤ ((src.drop lineLen).drop length.toNat).length := by
                  simp only [List.length_drop]
                  omega
                simp only [if_neg null, if_neg negative, if_neg short,
                  if_neg longEnough, List.drop_append_of_le_length bounds,
                  List.take_append_of_le_length payloadBound,
                  List.drop_append_of_le_length payloadBound,
                  List.take_append_of_le_length tailBound,
                  List.drop_append_of_le_length tailBound]
                by_cases terminated :
                    ((src.drop lineLen).drop length.toNat).take 2 = crlf
                · simp only [terminated, ne_eq, not_true, if_false]
                · simp only [ne_eq, terminated, not_false_eq_true, if_true,
                    and_self]

/-- The element loop inherits stability from the parser of one element. -/
theorem parseElements_append {parse : Bytes → ParseRun}
    (shrinks : ∀ src, (parse src).rest <:+ src) (count : Nat)
    (temp extra : Bytes)
    (stable : ∀ src, src.length ≤ temp.length →
      (parse src).ExtendsTo extra (parse (src ++ extra))) :
    let short := parseElements parse count temp
    let long := parseElements parse count (temp ++ extra)
    match short.result with
    | .ok (some items) => long.result = .ok (some items) ∧
        long.temp = short.temp ++ extra ∧ long.reserved = short.reserved
    | .ok none => short.reserved <+: long.reserved
    | .error reason =>
        long.result = .error reason ∧ long.reserved = short.reserved := by
  induction count generalizing temp with
  | zero => exact ⟨rfl, rfl, rfl⟩
  | succ count ih =>
      have head := stable temp le_rfl
      have tail := ih (parse temp).rest fun src fits =>
        stable src (fits.trans (shrinks temp).length_le)
      simp only [parseElements]
      unfold ParseRun.ExtendsTo at head
      cases first : (parse temp).result with
      | error reason =>
          rw [first] at head
          simp only [head.1, head.2, and_self]
      | ok found =>
          rw [first] at head
          cases found with
          | none =>
              dsimp only at head ⊢
              split
              · exact head
              · exact head
              · exact head.trans (List.prefix_append _ _)
          | some element =>
              dsimp only at head tail ⊢
              rw [head]
              dsimp only
              cases others :
                  (parseElements parse count (parse temp).rest).result with
              | error reason =>
                  rw [others] at tail
                  simp only [Except.map, tail.1, tail.2, and_self]
              | ok items =>
                  rw [others] at tail
                  cases items with
                  | none =>
                      simp only [Except.map, Option.map]
                      exact (List.prefix_append_right_inj _).mpr tail
                  | some items =>
                      simp only [Except.map, Option.map, tail.1, tail.2.1,
                        tail.2.2, and_self]

theorem parseArray_append {parse : Bytes → ParseRun}
    (shrinks : ∀ src, (parse src).rest <:+ src) (src extra : Bytes)
    (stable : ∀ part : Bytes, part.length < src.length →
      (parse part).ExtendsTo extra (parse (part ++ extra))) :
    (parseArray parse src).ExtendsTo extra
      (parseArray parse (src ++ extra)) := by
  simp only [parseArray, ParseRun.ExtendsTo]
  cases found : lineLength src with
  | error reason =>
      rw [lineLength_append extra (by simp [found]), found]
      exact ⟨rfl, rfl⟩
  | ok header =>
      cases header with
      | none => exact List.nil_prefix
      | some header =>
          obtain ⟨count, lineLen⟩ := header
          rw [lineLength_append extra (by simp [found]), found]
          have bounds := lineLength_consumed found
          dsimp only
          by_cases null : count = -1
          · simp only [if_pos null, List.drop_append_of_le_length bounds.2]
          · by_cases negative : count < 0
            · simp only [if_neg null, if_pos negative, and_self]
            · simp only [if_neg null, if_neg negative,
                List.drop_append_of_le_length bounds.2]
              have loop := parseElements_append shrinks count.toNat
                (src.drop lineLen) extra fun part fits =>
                  stable part (by
                    rw [List.length_drop] at fits
                    omega)
              have left :=
                parseElements_temp shrinks count.toNat (src.drop lineLen)
              cases elements : (parseElements parse count.toNat
                  (src.drop lineLen)).result with
              | error reason =>
                  simp only [elements] at loop
                  simp only [loop.1, loop.2, and_self]
              | ok items =>
                  simp only [elements] at loop
                  cases items with
                  | none =>
                      dsimp only at loop ⊢
                      split <;>
                        exact List.cons_prefix_cons.mpr ⟨rfl, loop⟩
                  | some items =>
                      dsimp only at loop ⊢
                      have leftBound : (parseElements parse count.toNat
                          (src.drop lineLen)).temp.length ≤ src.length :=
                        (left.trans (List.drop_suffix _ _)).length_le
                      rw [loop.1]
                      dsimp only
                      rw [loop.2.1, loop.2.2]
                      simp only [List.length_append,
                        Nat.add_sub_add_right]
                      rw [List.drop_append_of_le_length (by omega)]

theorem parseFrame_append {parse : Bytes → ParseRun}
    (shrinks : ∀ src, (parse src).rest <:+ src) (src extra : Bytes)
    (stable : ∀ part : Bytes, part.length < src.length →
      (parse part).ExtendsTo extra (parse (part ++ extra))) :
    (parseFrame parse src).ExtendsTo extra
      (parseFrame parse (src ++ extra)) := by
  cases src with
  | nil => exact List.nil_prefix
  | cons first src =>
      simp only [parseFrame, List.cons_append]
      rw [← List.cons_append]
      split_ifs
      · exact parseLine_append _ _ extra
      · exact parseLine_append _ _ extra
      · exact parseLine_append _ _ extra
      · exact parseBulkString_append _ extra
      · exact parseArray_append shrinks _ extra stable
      · exact ⟨rfl, rfl⟩

/-- A run of the parser determines the run on every longer buffer. -/
theorem parseRun_append (src extra : Bytes) :
    (parseRun src).ExtendsTo extra (parseRun (src ++ extra)) := by
  induction size : src.length using Nat.strongRecOn generalizing src with
  | ind length ih =>
      subst size
      rw [parseRun_eq src, parseRun_eq (src ++ extra)]
      apply parseFrame_append parseRun_rest
      intro part shorter
      exact ih part.length shorter part rfl

/-- What is parsed or rejected at the front of a buffer stays parsed or
rejected when more bytes arrive; an undecided parse leaves the buffer alone, and
every proper initial segment of a whole frame is undecided. -/
theorem parse_stable (buffer extra : Bytes) :
    (∀ value rest, parse buffer = (.ok (some value), rest) →
      ∃ consumed ≤ buffer.length, rest = buffer.drop consumed ∧
        parse (buffer ++ extra) =
          (.ok (some value), (buffer ++ extra).drop consumed)) ∧
    (∀ reason rest, parse buffer = (.error reason, rest) →
      (parse (buffer ++ extra)).1 = .error reason) ∧
    (∀ rest, parse buffer = (.ok none, rest) → rest = buffer) ∧
    (∀ value, extra ≠ [] →
      parse (buffer ++ extra) = (.ok (some value), []) →
      parse buffer = (.ok none, buffer)) := by
  have extended := parseRun_append buffer extra
  unfold ParseRun.ExtendsTo at extended
  refine ⟨?_, ?_, ?_, ?_⟩
  · intro value rest parsed
    obtain ⟨found, rfl⟩ := Prod.mk.inj parsed
    rw [found] at extended
    obtain ⟨front, layout⟩ := parseRun_rest buffer
    have split : (parseRun buffer).rest = buffer.drop front.length := by
      conv_rhs => rw [← layout]
      rw [List.drop_left]
    have bound : front.length ≤ buffer.length := by
      rw [← layout, List.length_append]
      omega
    refine ⟨front.length, bound, split, ?_⟩
    dsimp only at extended
    rw [parse, extended, split, List.drop_append_of_le_length bound]
  · intro reason rest failed
    obtain ⟨found, rfl⟩ := Prod.mk.inj failed
    rw [found] at extended
    exact extended.1
  · intro rest undecided
    obtain ⟨found, rfl⟩ := Prod.mk.inj undecided
    exact parseRun_of_none found
  · intro value more whole
    obtain ⟨found, exhausted⟩ := Prod.mk.inj whole
    cases answer : (parseRun buffer).result with
    | error reason =>
        rw [answer] at extended
        rw [found] at extended
        cases extended.1
    | ok parsed =>
        cases parsed with
        | none => rw [parse, answer, parseRun_of_none answer]
        | some other =>
            rw [answer] at extended
            dsimp only at extended
            rw [extended] at exhausted
            exact absurd (List.append_eq_nil_iff.mp exhausted).2 more

end Value

end RustiCache
