import RustiCache.CheckedOperations
import RustiCache.RespConsumption

/-!
# The parser with its panics

The same parser once more, with every index, slice, advance, addition,
subtraction and reservation of the source written out as an operation that may
panic.  On buffers below `2 ^ 63` bytes it does what the plain model does, up to
the first reservation that is too large, except for one kind of bulk string
header that fills a buffer of `isize::MAX` bytes.
-/

namespace RustiCache

namespace Value

/-- What the parser answers and leaves in the buffer. -/
abbrev Outcome := Except RespParseError (Option Value) × Bytes

namespace Checked

open RustiCache.Checked

/-- The loop of `get_line` over the remaining positions. -/
def getLineAt (src : Bytes) : List Nat → Checked (Option (Bytes × Nat))
  | [] => pure none
  | place :: places => do
      let first ← index src place
      if first = 13 then
        let second ← index src (← add (2 ^ 64) place 1)
        if second = 10 then
          let line ← sliceTo src place
          return some (line, ← add (2 ^ 64) place 2)
        else
          getLineAt src places
      else
        getLineAt src places

/-- `0..src.len().saturating_sub(1)` never underflows. -/
def getLine (src : Bytes) : Checked (Option (Bytes × Nat)) :=
  getLineAt src (List.range (src.length - 1))

def lineText (src : Bytes) :
    Checked (Except RespParseError (Option (String × Nat))) := do
  match ← getLine src with
  | none => return .ok none
  | some (line, consumed) =>
      match fromUtf8 (← sliceFrom line 1) with
      | .error invalid => return .error (.protocol invalid.message)
      | .ok content => return .ok (some (content, consumed))

def lineLength (src : Bytes) :
    Checked (Except RespParseError (Option (Int × Nat))) := do
  match ← lineText src with
  | .error reason => return .error reason
  | .ok none => return .ok none
  | .ok (some (content, consumed)) =>
      match isize.parse (asBytes content) with
      | .error _ => return .error .invalidInteger
      | .ok length => return .ok (some (length, consumed))

def parseLine (build : String → Except RespParseError Value) (src : Bytes) :
    Checked Outcome := do
  match ← lineText src with
  | .error reason => return (.error reason, src)
  | .ok none => return (.ok none, src)
  | .ok (some (content, consumed)) =>
      match build content with
      | .error reason => return (.error reason, src)
      | .ok value => return (.ok (some value), ← sliceFrom src consumed)

def parseSimpleString (src : Bytes) : Checked Outcome :=
  parseLine (fun content => .ok (.simpleString content)) src

def parseError (src : Bytes) : Checked Outcome :=
  parseLine (fun content => .ok (.error content)) src

def parseInteger (src : Bytes) : Checked Outcome :=
  parseLine (fun content =>
    match i64.parse (asBytes content) with
    | .error _ => .error .invalidInteger
    | .ok number => .ok (.integer (Int64.ofInt number))) src

/-- Whether the buffer starts with the line terminator. -/
def startsWithCrlf (src : Bytes) : Checked Bool := do
  if src.length < 2 then
    return false
  else if (← index src 0) ≠ 13 then
    return false
  else
    return (← index src 1) = 10

def parseBulkString (src : Bytes) : Checked Outcome := do
  match ← lineLength src with
  | .error reason => return (.error reason, src)
  | .ok none => return (.ok none, src)
  | .ok (some (length, lineLen)) =>
      if length = -1 then
        return (.ok (some (.bulkString none)), ← sliceFrom src lineLen)
      else if length < 0 then
        return (.error (.protocol "Negative bulk string length other than -1"),
          src)
      else
        let length := length.toNat
        let totalRequired ← add (2 ^ 64) (← add (2 ^ 64) lineLen length) 2
        if src.length < totalRequired then
          return (.ok none, src)
        else
          let (data, src) ← splitTo (← sliceFrom src lineLen) length
          if ← startsWithCrlf src then
            return (.ok (some (.bulkString (some data))), ← sliceFrom src 2)
          else
            return (.error (.protocol "Expected CRLF after bulk string data"),
              src)

def parseElements (parse : Bytes → Checked Outcome) :
    Nat → Bytes → Checked (Except RespParseError (Option (List Value)) × Bytes)
  | 0, temp => return (.ok (some []), temp)
  | count + 1, temp => do
      let (result, temp) ← parse temp
      match result with
      | .error reason => return (.error reason, temp)
      | .ok none => return (.ok none, temp)
      | .ok (some element) =>
          let (others, temp) ← parseElements parse count temp
          return (others.map (Option.map (element :: ·)), temp)

def parseArray (size : Nat) (parse : Bytes → Checked Outcome) (src : Bytes) :
    Checked Outcome := do
  match ← lineLength src with
  | .error reason => return (.error reason, src)
  | .ok none => return (.ok none, src)
  | .ok (some (count, lineLen)) =>
      if count = -1 then
        return (.ok (some (.array none)), ← sliceFrom src lineLen)
      else if count < 0 then
        return (.error (.protocol "Negative array count other than -1"), src)
      else
        let temp ← sliceFrom src lineLen
        withCapacity size count.toNat
        let (elements, temp) ← parseElements parse count.toNat temp
        match elements with
        | .error reason => return (.error reason, src)
        | .ok none => return (.ok none, src)
        | .ok (some elements) =>
            let consumedTotal ← sub src.length temp.length
            return (.ok (some (.array (some elements))),
              ← sliceFrom src consumedTotal)

def parseFrame (size : Nat) (parse : Bytes → Checked Outcome) (src : Bytes) :
    Checked Outcome := do
  if src.isEmpty then
    return (.ok none, src)
  else
    let first ← index src 0
    if first = 43 then parseSimpleString src
    else if first = 45 then parseError src
    else if first = 58 then parseInteger src
    else if first = 36 then parseBulkString src
    else if first = 42 then parseArray size parse src
    else return (.error (.unknownPrefix first), src)

/-- The parser with a bound on the nesting of arrays. -/
def parseAt (size : Nat) : Nat → Bytes → Checked Outcome
  | 0, src => return (.ok none, src)
  | depth + 1, src => parseFrame size (parseAt size depth) src

/-- `Value::parse` for elements of the given size. -/
def parse (size : Nat) (src : Bytes) : Checked Outcome :=
  parseAt size src.length src

section Lines

theorem getLine_of_short {src : Bytes} (short : src.length ≤ 1) :
    Value.getLine src = none := by
  rcases src with _ | ⟨first, _ | ⟨second, rest⟩⟩
  · rfl
  · rfl
  · simp at short

theorem exists_two {src : Bytes} (long : 2 ≤ src.length) :
    ∃ first second rest, src = first :: second :: rest := by
  rcases src with _ | ⟨first, _ | ⟨second, rest⟩⟩
  · simp at long
  · simp at long
  · exact ⟨first, second, rest, rfl⟩

/-- The loop over the positions from `place` on reads the line that starts
there. -/
theorem getLineAt_eq {src : Bytes} (short : src.length < 2 ^ 64)
    (place count : Nat) (covers : place + count = src.length - 1) :
    getLineAt src (List.range' place count) =
      .ok ((Value.getLine (src.drop place)).map fun found =>
        (src.take place ++ found.1, found.2 + place)) := by
  induction count generalizing place with
  | zero =>
      have few : (src.drop place).length ≤ 1 := by
        rw [List.length_drop]
        omega
      rw [getLine_of_short few]
      rfl
  | succ count ih =>
      have many : 2 ≤ (src.drop place).length := by
        rw [List.length_drop]
        omega
      obtain ⟨first, second, rest, layout⟩ := exists_two many
      have firstAt : index src place = .ok first := by
        apply index_eq
        rw [← Nat.add_zero place, ← List.getElem?_drop, layout]
        rfl
      have secondAt : index src (place + 1) = .ok second := by
        apply index_eq
        rw [← List.getElem?_drop, layout]
        rfl
      have later : src.drop (place + 1) = second :: rest := by
        rw [← List.drop_drop, layout]
        rfl
      have longer : src.take (place + 1) = src.take place ++ [first] := by
        rw [List.take_add, layout]
        rfl
      have others := ih (place + 1) (by omega)
      rw [later, longer] at others
      rw [List.range'_succ, getLineAt, firstAt, layout, Value.getLine]
      simp only [ok_bind, add_eq (by omega : place + 1 < 2 ^ 64), secondAt]
      by_cases ended : first = 13 ∧ second = 10
      · obtain ⟨rfl, rfl⟩ := ended
        rw [sliceTo_eq (by omega : place ≤ src.length),
          add_eq (by omega : place + 2 < 2 ^ 64)]
        simp [Nat.add_comm]
      · rw [if_neg ended, ← ite_and, if_neg ended, others]
        cases Value.getLine (second :: rest) with
        | none => rfl
        | some found => simp [Nat.add_assoc, Nat.add_comm place]

theorem getLine_eq {src : Bytes} (short : src.length < 2 ^ 64) :
    getLine src = .ok (Value.getLine src) := by
  have read := getLineAt_eq short 0 (src.length - 1) (Nat.zero_add _)
  rw [getLine, List.range_eq_range', read]
  simp

/-- A line that starts with a type byte can be sliced after it. -/
theorem lineText_eq {first : UInt8} {src : Bytes} (ordinary : first ≠ 13)
    (short : (first :: src).length < 2 ^ 64) :
    lineText (first :: src) = .ok (Value.lineText (first :: src)) := by
  rw [lineText, getLine_eq short, Value.lineText]
  cases found : Value.getLine (first :: src) with
  | none => rfl
  | some line =>
      obtain ⟨line, consumed⟩ := line
      obtain ⟨_, rest, layout⟩ := getLine_spec found
      have nonempty : 1 ≤ line.length := by
        cases line with
        | nil =>
            simp only [crlf, List.nil_append, List.cons_append,
              List.cons.injEq] at layout
            exact absurd layout.1 ordinary
        | cons head line => simp
      simp only [ok_bind, sliceFrom_eq nonempty]
      cases fromUtf8 (line.drop 1) <;> rfl

theorem lineLength_eq {first : UInt8} {src : Bytes} (ordinary : first ≠ 13)
    (short : (first :: src).length < 2 ^ 64) :
    lineLength (first :: src) = .ok (Value.lineLength (first :: src)) := by
  rw [lineLength, lineText_eq ordinary short, Value.lineLength]
  cases Value.lineText (first :: src) with
  | error reason => rfl
  | ok line =>
      cases line with
      | none => rfl
      | some line =>
          obtain ⟨content, consumed⟩ := line
          simp only [ok_bind]
          cases isize.parse (asBytes content) <;> rfl

end Lines

end Checked

end Value

end RustiCache
