import RustiCache.RespValue

/-!
# The incremental RESP parser

`Value::parse` looks at the front of a growing buffer.  It answers with a
value and removes its bytes, asks for more data, or reports an error.  Arrays
are parsed on a copy of the buffer, whose elements are parsed by the same
function, so the model ties the knot with a recursion depth.  The number of
buffered bytes always suffices as depth, and `parseRun_eq` states the resulting
equation in the shape of the source.
-/

namespace RustiCache

inductive RespParseError
  | unknownPrefix (byte : UInt8)
  | invalidInteger
  | protocol (text : String)
  deriving DecidableEq, Repr

def RespParseError.message : RespParseError → String
  | .unknownPrefix byte =>
      let number := byte.toNat
      s!"Unknown RESP prefix byte: {number}"
  | .invalidInteger => "Invalid integer in protocol"
  | .protocol text => s!"Protocol error: {text}"

namespace Value

/-- The bytes before the first line terminator, and their number plus two. -/
def getLine : Bytes → Option (Bytes × Nat)
  | [] => none
  | [_] => none
  | first :: second :: rest =>
      if first = 13 ∧ second = 10 then some ([], 2)
      else (getLine (second :: rest)).map fun found =>
        (first :: found.1, found.2 + 1)

/-- One run of the parser: its answer, the caller's buffer afterwards, and the
element counts that vectors were reserved for on the way. -/
structure ParseRun where
  result : Except RespParseError (Option Value)
  rest : Bytes
  reserved : List Nat
  deriving DecidableEq

/-- The first line without its leading type byte, as text. -/
def lineText (src : Bytes) : Except RespParseError (Option (String × Nat)) :=
  match getLine src with
  | none => .ok none
  | some (line, consumed) =>
      match fromUtf8 (line.drop 1) with
      | .error invalid => .error (.protocol invalid.message)
      | .ok content => .ok (some (content, consumed))

/-- The numeral on the first line of a bulk string or an array. -/
def lineLength (src : Bytes) : Except RespParseError (Option (Int × Nat)) :=
  match lineText src with
  | .error reason => .error reason
  | .ok none => .ok none
  | .ok (some (content, consumed)) =>
      match isize.parse (asBytes content) with
      | .error _ => .error .invalidInteger
      | .ok length => .ok (some (length, consumed))

/-- A value that fills one line, built from the text of the line. -/
def parseLine (build : String → Except RespParseError Value)
    (src : Bytes) : ParseRun :=
  match lineText src with
  | .error reason => ⟨.error reason, src, []⟩
  | .ok none => ⟨.ok none, src, []⟩
  | .ok (some (content, consumed)) =>
      match build content with
      | .error reason => ⟨.error reason, src, []⟩
      | .ok value => ⟨.ok (some value), src.drop consumed, []⟩

def parseSimpleString (src : Bytes) : ParseRun :=
  parseLine (fun content => .ok (.simpleString content)) src

def parseError (src : Bytes) : ParseRun :=
  parseLine (fun content => .ok (.error content)) src

def parseInteger (src : Bytes) : ParseRun :=
  parseLine (fun content =>
    match i64.parse (asBytes content) with
    | .error _ => .error .invalidInteger
    | .ok number => .ok (.integer (Int64.ofInt number))) src

def parseBulkString (src : Bytes) : ParseRun :=
  match lineLength src with
  | .error reason => ⟨.error reason, src, []⟩
  | .ok none => ⟨.ok none, src, []⟩
  | .ok (some (length, lineLen)) =>
      if length = -1 then
        ⟨.ok (some (.bulkString none)), src.drop lineLen, []⟩
      else if length < 0 then
        ⟨.error (.protocol "Negative bulk string length other than -1"),
          src, []⟩
      else
        let length := length.toNat
        let totalRequired := lineLen + length + 2
        if src.length < totalRequired then ⟨.ok none, src, []⟩
        else
          let data := (src.drop lineLen).take length
          let src := (src.drop lineLen).drop length
          -- The header and the payload are already gone when this check fails.
          if src.take 2 ≠ crlf then
            ⟨.error (.protocol "Expected CRLF after bulk string data"),
              src, []⟩
          else ⟨.ok (some (.bulkString (some data))), src.drop 2, []⟩

/-- The state of the element loop of `parseArray` when it ends. -/
structure ElementsRun where
  result : Except RespParseError (Option (List Value))
  temp : Bytes
  reserved : List Nat

/-- The element loop of `parseArray`, with the parser for one element as a
parameter. -/
def parseElements (parse : Bytes → ParseRun) : Nat → Bytes → ElementsRun
  | 0, temp => ⟨.ok (some []), temp, []⟩
  | count + 1, temp =>
      let run := parse temp
      match run.result with
      | .error reason => ⟨.error reason, run.rest, run.reserved⟩
      | .ok none => ⟨.ok none, run.rest, run.reserved⟩
      | .ok (some element) =>
          let others := parseElements parse count run.rest
          ⟨others.result.map (Option.map (element :: ·)), others.temp,
            run.reserved ++ others.reserved⟩

def parseArray (parse : Bytes → ParseRun) (src : Bytes) : ParseRun :=
  match lineLength src with
  | .error reason => ⟨.error reason, src, []⟩
  | .ok none => ⟨.ok none, src, []⟩
  | .ok (some (count, lineLen)) =>
      if count = -1 then ⟨.ok (some (.array none)), src.drop lineLen, []⟩
      else if count < 0 then
        ⟨.error (.protocol "Negative array count other than -1"), src, []⟩
      else
        -- The elements are parsed on a copy; `src` moves only at the end.
        let loop := parseElements parse count.toNat (src.drop lineLen)
        let reserved := count.toNat :: loop.reserved
        match loop.result with
        | .error reason => ⟨.error reason, src, reserved⟩
        | .ok none => ⟨.ok none, src, reserved⟩
        | .ok (some elements) =>
            let consumedTotal := src.length - loop.temp.length
            ⟨.ok (some (.array (some elements))), src.drop consumedTotal,
              reserved⟩

/-- The dispatch on the type byte, with the parser for array elements as a
parameter. -/
def parseFrame (parse : Bytes → ParseRun) (src : Bytes) : ParseRun :=
  match src with
  | [] => ⟨.ok none, src, []⟩
  | first :: _ =>
      if first = 43 then parseSimpleString src
      else if first = 45 then parseError src
      else if first = 58 then parseInteger src
      else if first = 36 then parseBulkString src
      else if first = 42 then parseArray parse src
      else ⟨.error (.unknownPrefix first), src, []⟩

/-- The parser with a bound on the nesting of arrays. -/
def parseAt : Nat → Bytes → ParseRun
  | 0, src => ⟨.ok none, src, []⟩
  | depth + 1, src => parseFrame (parseAt depth) src

/-- A run of `Value::parse`. -/
def parseRun (src : Bytes) : ParseRun :=
  parseAt src.length src

/-- The answer of `Value::parse` and the buffer it leaves. -/
def parse (src : Bytes) : Except RespParseError (Option Value) × Bytes :=
  ((parseRun src).result, (parseRun src).rest)

section Lines

theorem getLine_spec {src line : Bytes} {consumed : Nat}
    (found : getLine src = some (line, consumed)) :
    consumed = line.length + 2 ∧ ∃ rest, src = line ++ crlf ++ rest := by
  induction src using getLine.induct generalizing line consumed with
  | case1 => simp [getLine] at found
  | case2 => simp [getLine] at found
  | case3 first second rest terminator =>
      obtain ⟨rfl, rfl⟩ := terminator
      simp only [getLine, and_self, if_true, Option.some.injEq,
        Prod.mk.injEq] at found
      obtain ⟨rfl, rfl⟩ := found
      exact ⟨rfl, rest, rfl⟩
  | case4 first second rest ordinary ih =>
      simp only [getLine, if_neg ordinary, Option.map_eq_some_iff,
        Prod.mk.injEq] at found
      obtain ⟨⟨tail, length⟩, tailFound, rfl, rfl⟩ := found
      obtain ⟨rfl, suffix, split⟩ := ih tailFound
      exact ⟨rfl, suffix, by rw [split]; rfl⟩

/-- The first line has no line terminator inside. -/
theorem getLine_clean {src line : Bytes} {consumed : Nat}
    (found : getLine src = some (line, consumed)) : ¬ crlf <:+: line := by
  induction src using getLine.induct generalizing line consumed with
  | case1 => simp [getLine] at found
  | case2 => simp [getLine] at found
  | case3 first second rest terminator =>
      simp only [getLine, terminator, and_self, if_true, Option.some.injEq,
        Prod.mk.injEq] at found
      rw [← found.1]
      decide
  | case4 first second rest ordinary ih =>
      simp only [getLine, if_neg ordinary, Option.map_eq_some_iff,
        Prod.mk.injEq] at found
      obtain ⟨⟨tail, length⟩, tailFound, rfl, rfl⟩ := found
      obtain ⟨-, after, split⟩ := getLine_spec tailFound
      intro inside
      rcases List.infix_cons_iff.mp inside with ⟨others, starts⟩ | inner
      · -- a terminator at the front of the line would have ended it
        simp only [crlf, List.cons_append, List.nil_append,
          List.cons.injEq] at starts
        obtain ⟨rfl, rfl⟩ := starts
        simp only [List.cons_append, List.cons.injEq] at split
        exact ordinary ⟨rfl, split.1⟩
      · exact ih tailFound inner

/-- A line found in a buffer is found again when more bytes arrive. -/
theorem getLine_append {src line : Bytes} {consumed : Nat}
    (found : getLine src = some (line, consumed)) (extra : Bytes) :
    getLine (src ++ extra) = some (line, consumed) := by
  induction src using getLine.induct generalizing line consumed with
  | case1 => simp [getLine] at found
  | case2 => simp [getLine] at found
  | case3 first second rest terminator =>
      simpa [getLine, terminator] using found
  | case4 first second rest ordinary ih =>
      simp only [getLine, if_neg ordinary, Option.map_eq_some_iff] at found
      obtain ⟨⟨tail, length⟩, tailFound, same⟩ := found
      have longer := ih tailFound
      simp only [List.cons_append] at longer ⊢
      rw [getLine, if_neg ordinary, longer]
      exact congrArg some same

/-- Text without the line terminator is read back as the line it ends. -/
theorem getLine_crlf {line : Bytes} (clean : ¬ crlf <:+: line)
    (rest : Bytes) :
    getLine (line ++ crlf ++ rest) = some (line, line.length + 2) := by
  induction line with
  | nil => simp [crlf, getLine]
  | cons first line ih =>
      have tailClean : ¬ crlf <:+: line := fun inner =>
        clean (inner.trans (List.suffix_cons first line).isInfix)
      have tailFound := ih tailClean
      -- The terminator cannot start at `first`, or it would lie in the line
      -- or be followed by a second terminator.
      cases line with
      | nil =>
          have ordinary : ¬ (first = 13 ∧ (13 : UInt8) = 10) := by
            rintro ⟨_, impossible⟩
            exact absurd impossible (by decide)
          simp only [crlf, List.cons_append, List.nil_append] at tailFound ⊢
          rw [getLine, if_neg ordinary, tailFound]
          rfl
      | cons second line =>
          have ordinary : ¬ (first = 13 ∧ second = 10) := by
            rintro ⟨rfl, rfl⟩
            exact clean ⟨[], line, rfl⟩
          simp only [List.cons_append] at tailFound ⊢
          rw [getLine, if_neg ordinary, tailFound]
          rfl

end Lines

section Depth

theorem lineText_consumed {src : Bytes} {content : String} {consumed : Nat}
    (found : lineText src = .ok (some (content, consumed))) :
    2 ≤ consumed ∧ consumed ≤ src.length := by
  unfold lineText at found
  split at found
  · cases found
  next line length lineFound =>
    obtain ⟨rfl, rest, rfl⟩ := getLine_spec lineFound
    split at found
    · cases found
    · cases found
      simp [crlf]

theorem lineLength_consumed {src : Bytes} {length : Int} {consumed : Nat}
    (found : lineLength src = .ok (some (length, consumed))) :
    2 ≤ consumed ∧ consumed ≤ src.length := by
  unfold lineLength at found
  split at found
  · cases found
  · cases found
  next content lineLen textFound =>
    split at found
    · cases found
    · cases found
      exact lineText_consumed textFound

theorem parseLine_rest (build : String → Except RespParseError Value)
    (src : Bytes) : (parseLine build src).rest <:+ src := by
  unfold parseLine
  split
  · exact List.suffix_rfl
  · exact List.suffix_rfl
  · split
    · exact List.suffix_rfl
    · exact List.drop_suffix _ _

theorem parseBulkString_rest (src : Bytes) :
    (parseBulkString src).rest <:+ src := by
  unfold parseBulkString
  split
  · exact List.suffix_rfl
  · exact List.suffix_rfl
  · dsimp only
    split_ifs
    · exact List.drop_suffix _ _
    · exact List.suffix_rfl
    · exact List.suffix_rfl
    · exact (List.drop_suffix _ _).trans (List.drop_suffix _ _)
    · exact ((List.drop_suffix _ _).trans (List.drop_suffix _ _)).trans
        (List.drop_suffix _ _)

theorem parseArray_rest (parse : Bytes → ParseRun) (src : Bytes) :
    (parseArray parse src).rest <:+ src := by
  unfold parseArray
  split
  · exact List.suffix_rfl
  · exact List.suffix_rfl
  · dsimp only
    split_ifs
    · exact List.drop_suffix _ _
    · exact List.suffix_rfl
    · split
      · exact List.suffix_rfl
      · exact List.suffix_rfl
      · exact List.drop_suffix _ _

/-- Whatever parses the elements, the buffer only loses bytes at its front. -/
theorem parseFrame_rest (parse : Bytes → ParseRun) (src : Bytes) :
    (parseFrame parse src).rest <:+ src := by
  cases src with
  | nil => exact List.suffix_rfl
  | cons first src =>
      simp only [parseFrame]
      split_ifs
      · exact parseLine_rest _ _
      · exact parseLine_rest _ _
      · exact parseLine_rest _ _
      · exact parseBulkString_rest _
      · exact parseArray_rest _ _
      · exact List.suffix_rfl

theorem parseAt_rest (depth : Nat) (src : Bytes) :
    (parseAt depth src).rest <:+ src := by
  cases depth with
  | zero => exact List.suffix_rfl
  | succ depth => exact parseFrame_rest _ src

theorem parseRun_rest (src : Bytes) : (parseRun src).rest <:+ src :=
  parseAt_rest _ src

/-- The element loop only parses buffers no longer than its own. -/
theorem parseElements_congr {first second : Bytes → ParseRun}
    (shrinks : ∀ src, (first src).rest <:+ src) (count : Nat) (temp : Bytes)
    (agree : ∀ src, src.length ≤ temp.length → first src = second src) :
    parseElements first count temp = parseElements second count temp := by
  induction count generalizing temp with
  | zero => rfl
  | succ count ih =>
      have tailAgree : ∀ src, src.length ≤ (first temp).rest.length →
          first src = second src := fun src short =>
        agree src (short.trans (shrinks temp).length_le)
      simp only [parseElements, ← agree temp le_rfl]
      rw [ih (first temp).rest tailAgree]

theorem parseFrame_congr {first second : Bytes → ParseRun}
    (shrinks : ∀ src, (first src).rest <:+ src) (src : Bytes)
    (agree : ∀ part : Bytes, part.length < src.length →
      first part = second part) :
    parseFrame first src = parseFrame second src := by
  have arrays : parseArray first src = parseArray second src := by
    unfold parseArray
    split
    · rfl
    · rfl
    next count lineLen header =>
      have bounds := lineLength_consumed header
      rw [parseElements_congr shrinks]
      intro part short
      apply agree
      simp only [List.length_drop] at short
      omega
  unfold parseFrame
  rw [arrays]

/-- Every depth of at least the number of buffered bytes gives the same run. -/
theorem parseAt_eq_of_length_le {src : Bytes} {first second : Nat}
    (firstDeep : src.length ≤ first) (secondDeep : src.length ≤ second) :
    parseAt first src = parseAt second src := by
  induction first generalizing second src with
  | zero =>
      have empty : src = [] := List.eq_nil_of_length_eq_zero (by omega)
      subst empty
      cases second <;> rfl
  | succ first ih =>
      cases second with
      | zero =>
          have empty : src = [] := List.eq_nil_of_length_eq_zero (by omega)
          subst empty
          rfl
      | succ second =>
          apply parseFrame_congr (parseAt_rest first)
          intro part short
          exact ih (by omega) (by omega)

/-- The parser in the recursive shape of the source. -/
theorem parseRun_eq (src : Bytes) :
    parseRun src = parseFrame parseRun src := by
  have deeper : parseRun src = parseAt (src.length + 1) src :=
    parseAt_eq_of_length_le le_rfl (by omega)
  rw [deeper]
  apply parseFrame_congr (parseAt_rest _)
  intro part short
  exact parseAt_eq_of_length_le (by omega) le_rfl

theorem parseRun_plus (src : Bytes) :
    parseRun (43 :: src) = parseSimpleString (43 :: src) := by
  rw [parseRun_eq]
  rfl

theorem parseRun_minus (src : Bytes) :
    parseRun (45 :: src) = parseError (45 :: src) := by
  rw [parseRun_eq]
  rfl

theorem parseRun_colon (src : Bytes) :
    parseRun (58 :: src) = parseInteger (58 :: src) := by
  rw [parseRun_eq]
  rfl

theorem parseRun_dollar (src : Bytes) :
    parseRun (36 :: src) = parseBulkString (36 :: src) := by
  rw [parseRun_eq]
  rfl

theorem parseRun_star (src : Bytes) :
    parseRun (42 :: src) = parseArray parseRun (42 :: src) := by
  rw [parseRun_eq]
  rfl

end Depth

end Value

end RustiCache
