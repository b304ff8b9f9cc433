import RustiCache.RespConsumption
import RustiCache.RespGrammar

/-!
# The parser accepts its grammar

What the parser takes off the front of a buffer is an encoding of the value it
answers with, and every encoding at the front of a buffer is taken off.  Since
the parser is a function, a buffer has at most one encoding at its front.
-/

namespace RustiCache

namespace Value

section Lines

/-- The text of a line is what stands between the type byte and the
terminator. -/
theorem lineText_shape {first : UInt8} {src : Bytes} {content : String}
    {consumed : Nat} (ordinary : first ≠ 13)
    (found : lineText (first :: src) = .ok (some (content, consumed))) :
    ¬ crlf <:+: asBytes content ∧
      consumed = (first :: asBytes content ++ crlf).length ∧
      ∃ rest, first :: src = first :: asBytes content ++ crlf ++ rest := by
  unfold lineText at found
  split at found
  · cases found
  next line length lineFound =>
    have clean := getLine_clean lineFound
    obtain ⟨rfl, rest, layout⟩ := getLine_spec lineFound
    split at found
    · cases found
    next text valid =>
      cases found
      have bytes := asBytes_of_fromUtf8 valid
      cases line with
      | nil =>
          simp only [crlf, List.nil_append, List.cons_append,
            List.cons.injEq] at layout
          exact absurd layout.1 ordinary
      | cons head line =>
          simp only [List.cons_append, List.cons.injEq] at layout
          obtain ⟨rfl, rfl⟩ := layout
          rw [List.drop_succ_cons, List.drop_zero] at bytes
          subst bytes
          refine ⟨fun inner => clean (inner.trans
            (List.suffix_cons first _).isInfix), ?_, rest, ?_⟩
          · simp [crlf]
          · simp

theorem lineLength_shape {first : UInt8} {src : Bytes} {length : Int}
    {consumed : Nat} (ordinary : first ≠ 13)
    (found : lineLength (first :: src) = .ok (some (length, consumed))) :
    ∃ numeral rest, Numeral numeral length ∧ isize.Fits length ∧
      consumed = (first :: numeral ++ crlf).length ∧
      first :: src = first :: numeral ++ crlf ++ rest := by
  unfold lineLength at found
  split at found
  · cases found
  · cases found
  next content lineLen textFound =>
    obtain ⟨_, rfl, rest, layout⟩ := lineText_shape ordinary textFound
    split at found
    · cases found
    next number read =>
      cases found
      obtain ⟨spells, fits⟩ := (isize.parse_ok_iff rfl _ _).mp read
      exact ⟨asBytes content, rest, spells, fits, rfl, layout⟩

end Lines

/-- The run takes an encoding of its value off the front of the buffer. -/
def TakesEncoding (src : Bytes) (run : ParseRun) : Prop :=
  ∀ value, run.result = .ok (some value) →
    ∃ front, Encodes value front ∧ src = front ++ run.rest

section Soundness

theorem parseLine_takesEncoding {first : UInt8} (ordinary : first ≠ 13)
    {build : String → Except RespParseError Value}
    (encodes : ∀ content value, ¬ crlf <:+: asBytes content →
      build content = .ok value →
      Encodes value (first :: asBytes content ++ crlf)) (src : Bytes) :
    TakesEncoding (first :: src) (parseLine build (first :: src)) := by
  intro value parsed
  unfold parseLine at parsed ⊢
  split
  next found => simp [found] at parsed
  next found => simp [found] at parsed
  next content consumed found =>
    obtain ⟨clean, rfl, rest, layout⟩ := lineText_shape ordinary found
    rw [found] at parsed
    dsimp only at parsed ⊢
    split
    next built => simp [built] at parsed
    next built =>
      rw [built] at parsed
      cases parsed
      refine ⟨_, encodes content _ clean built, ?_⟩
      rw [layout, List.drop_left]

theorem parseBulkString_takesEncoding (src : Bytes) :
    TakesEncoding (36 :: src) (parseBulkString (36 :: src)) := by
  intro value parsed
  unfold parseBulkString at parsed ⊢
  split
  next found => simp [found] at parsed
  next found => simp [found] at parsed
  next length lineLen found =>
    obtain ⟨numeral, rest, spells, _, rfl, layout⟩ :=
      lineLength_shape (by decide) found
    rw [found] at parsed
    dsimp only at parsed ⊢
    rw [layout, List.drop_left] at parsed ⊢
    split_ifs at parsed ⊢ with null negative short terminated
    · cases parsed
      subst null
      exact ⟨_, .nullBulk spells, rfl⟩
    · cases parsed
    · cases parsed
      rw [ne_eq, not_not] at terminated
      have enough : length.toNat ≤ rest.length := by
        simp only [List.length_append] at short
        omega
      have sized : ((rest.take length.toNat).length : Int) = length := by
        rw [List.length_take, Nat.min_eq_left enough]
        omega
      rw [← sized] at spells
      refine ⟨_, .bulkString spells, ?_⟩
      have payload := List.take_append_drop length.toNat rest
      have ending := List.take_append_drop 2 (rest.drop length.toNat)
      rw [terminated] at ending
      simp only [List.append_assoc]
      rw [ending, payload]

/-- The element loop takes encodings of its elements. -/
theorem parseElements_takesEncodings {temp : Bytes}
    (sound : ∀ src : Bytes, src.length ≤ temp.length →
      TakesEncoding src (parseRun src))
    {count : Nat} {items : List Value}
    (parsed : (parseElements parseRun count temp).result = .ok (some items)) :
    ∃ rows : List (Value × Bytes), rows.length = count ∧
      rows.map Prod.fst = items ∧ (∀ row ∈ rows, Encodes row.1 row.2) ∧
      temp = (rows.map Prod.snd).flatten ++
        (parseElements parseRun count temp).temp := by
  induction count generalizing temp items with
  | zero =>
      cases parsed
      exact ⟨[], rfl, rfl, by simp, rfl⟩
  | succ count ih =>
      simp only [parseElements] at parsed ⊢
      split at parsed
      next => cases parsed
      next => cases parsed
      next element found =>
        obtain ⟨front, encodes, layout⟩ := sound temp le_rfl element found
        cases others : (parseElements parseRun count (parseRun temp).rest).result with
        | error reason => simp [others, Except.map] at parsed
        | ok rest =>
            cases rest with
            | none => simp [others, Except.map] at parsed
            | some elements =>
                simp only [others, Except.map, Option.map, Except.ok.injEq,
                  Option.some.injEq] at parsed
                subst parsed
                obtain ⟨rows, counted, values, each, tail⟩ := ih
                  (fun src short => sound src
                    (short.trans (parseRun_rest temp).length_le)) others
                refine ⟨(element, front) :: rows, ?_, ?_, ?_, ?_⟩
                · rw [List.length_cons, counted]
                · rw [List.map_cons, values]
                · exact List.forall_mem_cons.mpr ⟨encodes, each⟩
                · rw [List.map_cons, List.flatten_cons, List.append_assoc,
                    ← tail]
                  exact layout

theorem parseArray_takesEncoding {src : Bytes}
    (sound : ∀ part : Bytes, part.length ≤ src.length →
      TakesEncoding part (parseRun part)) :
    TakesEncoding (42 :: src) (parseArray parseRun (42 :: src)) := by
  intro value parsed
  unfold parseArray at parsed ⊢
  split
  next found => simp [found] at parsed
  next found => simp [found] at parsed
  next count lineLen found =>
    obtain ⟨numeral, rest, spells, _, rfl, layout⟩ :=
      lineLength_shape (by decide) found
    have shorter : rest.length ≤ src.length := by
      have lengths := congrArg List.length layout
      simp only [List.length_append, List.length_cons] at lengths
      omega
    rw [found] at parsed
    dsimp only at parsed ⊢
    rw [layout, List.drop_left] at parsed ⊢
    split_ifs at parsed ⊢ with null negative
    · cases parsed
      subst null
      exact ⟨_, .nullArray spells, rfl⟩
    · cases elements : (parseElements parseRun count.toNat rest).result with
      | error reason => simp [elements] at parsed
      | ok loop =>
          cases loop with
          | none => simp [elements] at parsed
          | some items =>
              simp only [elements, Except.ok.injEq, Option.some.injEq]
                at parsed
              subst parsed
              obtain ⟨rows, counted, rfl, each, tail⟩ :=
                parseElements_takesEncodings
                  (fun part short => sound part (short.trans shorter)) elements
              have announced : (rows.length : Int) = count := by
                rw [counted]
                omega
              rw [← announced] at spells
              refine ⟨_, .array spells each, ?_⟩
              have consumed : (42 :: numeral ++ crlf ++ rest).length -
                  (parseElements parseRun count.toNat rest).temp.length =
                  (42 :: numeral ++ crlf ++
                    (rows.map Prod.snd).flatten).length := by
                have lengths := congrArg List.length tail
                simp only [List.length_append] at lengths ⊢
                omega
              dsimp only
              rw [consumed]
              generalize (parseElements parseRun count.toNat rest).temp = last
                at tail
              rw [tail, ← List.append_assoc, List.drop_left]

/-- The parser is sound for the grammar. -/
theorem parseRun_takesEncoding (src : Bytes) :
    TakesEncoding src (parseRun src) := by
  induction bound : src.length using Nat.strong_induction_on generalizing src with
  | _ bound ih =>
      cases src with
      | nil =>
          intro value parsed
          cases parsed
      | cons first src =>
          rw [parseRun_eq]
          simp only [parseFrame]
          split_ifs with plus minus colon dollar star
          · subst plus
            apply parseLine_takesEncoding (by decide)
            rintro content value clean ⟨⟩
            exact .simpleString clean
          · subst minus
            apply parseLine_takesEncoding (by decide)
            rintro content value clean ⟨⟩
            exact .error clean
          · subst colon
            apply parseLine_takesEncoding (by decide)
            intro content value clean built
            split at built
            next => cases built
            next number read =>
              cases built
              obtain ⟨spells, fits⟩ := (i64.parse_ok_iff rfl _ _).mp read
              exact .integer spells fits
          · subst dollar
            exact parseBulkString_takesEncoding src
          · subst star
            apply parseArray_takesEncoding
            intro part short
            refine ih part.length ?_ part rfl
            rw [List.length_cons] at bound
            omega
          · intro value parsed
            cases parsed

end Soundness

section Completeness

theorem three_le_of_encodes {value : Value} {bytes : Bytes}
    (encodes : Encodes value bytes) : 3 ≤ bytes.length := by
  cases encodes <;>
    simp only [List.length_append, List.length_cons, crlf, List.length_nil] <;>
    omega

theorem length_le_flatten {rows : List (Value × Bytes)}
    (each : ∀ row ∈ rows, Encodes row.1 row.2) :
    rows.length ≤ (rows.map Prod.snd).flatten.length := by
  induction rows with
  | nil => exact Nat.le_refl 0
  | cons row rows ih =>
      have head := three_le_of_encodes (each row (by simp))
      have tail := ih fun other member =>
        each other (List.mem_cons_of_mem row member)
      simp only [List.map_cons, List.flatten_cons, List.length_append,
        List.length_cons]
      omega

theorem length_le_flatten_of_mem {rows : List (Value × Bytes)}
    {row : Value × Bytes} (member : row ∈ rows) :
    row.2.length ≤ (rows.map Prod.snd).flatten.length := by
  have inside : row.2 ∈ rows.map Prod.snd := List.mem_map_of_mem member
  exact (List.sublist_flatten_of_mem inside).length_le

/-- The parser is complete for the grammar. -/
theorem readBack_of_encodes {value : Value} {bytes : Bytes}
    (encodes : Encodes value bytes) (short : bytes.length < 2 ^ 63) :
    ReadBack value bytes := by
  induction encodes with
  | simpleString clean => exact parseRun_simpleString clean
  | error clean => exact parseRun_error clean
  | integer spells fits => exact parseRun_integer spells fits
  | nullBulk spells => exact parseRun_nullBulk spells
  | bulkString spells =>
      refine parseRun_bulkString spells ?_
      simp only [List.length_append] at short
      omega
  | nullArray spells => exact parseRun_nullArray spells
  | @array numeral rows spells each ih =>
      rw [List.length_append] at short
      have few := length_le_flatten each
      refine parseRun_array spells (by omega) ?_
      intro row member
      apply ih row member
      have inside := length_le_flatten_of_mem member
      omega

end Completeness

end Value

end RustiCache
