import RustiCache.RespRoundTrip

/-!
# Replies as frames

A reply is one frame if it is parsed back as one value and nothing of it is
left, whatever bytes follow.  A value without error nodes is one frame whatever
its strings contain, since bulk strings are delimited by their length.  An error
is a line, and a line is one frame exactly when the text on it has no line
terminator inside.
-/

namespace RustiCache

namespace Value

/-- The bytes are parsed back as one value, whatever follows them. -/
def OneFrame (reply : Bytes) : Prop :=
  ∃ value, ∀ later, parse (reply ++ later) = (.ok (some value), later)

/-- A text without a line terminator. -/
def OneLine (text : String) : Prop :=
  ¬ crlf <:+: asBytes text

instance (text : String) : Decidable (OneLine text) :=
  inferInstanceAs (Decidable (¬ _))

/-- Values without error nodes whose simple strings are single lines. -/
inductive Plain : Value → Prop
  | simpleString {text : String} (line : OneLine text) :
      Plain (.simpleString text)
  | integer (number : Int64) : Plain (.integer number)
  | bulkString (data : Option Bytes) : Plain (.bulkString data)
  | nullArray : Plain (.array none)
  | array {items : List Value} (all : ∀ item ∈ items, Plain item) :
      Plain (.array (some items))

theorem plain_string (text : String) : Plain (string text) :=
  .bulkString _

theorem plain_ok : Plain ok :=
  .simpleString (by decide)

theorem serialize_ne_nil (value : Value) : serialize value ≠ [] := by
  cases value with
  | simpleString text => simp [serialize, crlf]
  | error text => simp [serialize, crlf]
  | integer number => simp [serialize, crlf]
  | bulkString data =>
      cases data with
      | none => decide
      | some data => simp [serialize, crlf]
  | array items =>
      cases items with
      | none => decide
      | some items => simp [serialize, crlf]

theorem length_le_serializeAll (items : List Value) :
    items.length ≤ (serializeAll items).length := by
  induction items with
  | nil => exact Nat.zero_le _
  | cons item items ih =>
      have positive := List.length_pos_of_ne_nil (serialize_ne_nil item)
      simp only [serializeAll, List.length_cons, List.length_append]
      omega

theorem serialize_length_le_serializeAll {item : Value} {items : List Value}
    (member : item ∈ items) :
    (serialize item).length ≤ (serializeAll items).length := by
  induction items with
  | nil => cases member
  | cons first items ih =>
      simp only [serializeAll, List.length_append]
      rcases List.mem_cons.mp member with rfl | inRest
      · omega
      · have bound := ih inRest
        omega

/-- The lengths inside a value are below that of its serialization. -/
theorem Plain.transparent {value : Value} (plain : Plain value)
    (fits : (serialize value).length < 2 ^ 63) : Transparent value := by
  induction plain with
  | simpleString line => exact .simpleString line
  | integer number => exact .integer number
  | bulkString data =>
      cases data with
      | none => exact .nullBulk
      | some data =>
          apply Transparent.bulkString
          simp only [serialize, List.length_append] at fits
          omega
  | nullArray => exact .nullArray
  | @array items all ih =>
      have inner : (serializeAll items).length < 2 ^ 63 := by
        simp only [serialize, List.length_append] at fits
        omega
      apply Transparent.array
      · exact (length_le_serializeAll items).trans_lt inner
      · intro item member
        exact ih item member
          ((serialize_length_le_serializeAll member).trans_lt inner)

theorem Plain.oneFrame {value : Value} (plain : Plain value)
    (fits : (serialize value).length < 2 ^ 63) :
    OneFrame (serialize value) :=
  ⟨value, parse_serialize_append (plain.transparent fits)⟩

/-- A line is one frame exactly when its text is a single line. -/
theorem oneFrame_line {text : String} :
    OneFrame (asBytes "-" ++ asBytes text ++ crlf) ↔ OneLine text := by
  change OneFrame (45 :: (asBytes text ++ crlf)) ↔ _
  constructor
  · rintro ⟨value, parsed⟩
    have alone := parsed []
    rw [List.append_nil, parse, parseRun_minus, parseError, parseLine,
      lineText] at alone
    cases found : getLine (45 :: (asBytes text ++ crlf)) with
    | none => simp [found] at alone
    | some pair =>
        obtain ⟨line, consumed⟩ := pair
        obtain ⟨rfl, rest, layout⟩ := getLine_spec found
        have nothingLeft : rest = [] := by
          rw [found] at alone
          dsimp only at alone
          cases decoded : fromUtf8 (line.drop 1) with
          | error invalid =>
              rw [decoded] at alone
              cases congrArg Prod.fst alone
          | ok content =>
              have length : line.length + 2 = (line ++ crlf).length := by
                simp [crlf]
              rw [decoded] at alone
              have dropped := congrArg Prod.snd alone
              dsimp only at dropped
              rwa [layout, length, List.drop_left] at dropped
        rw [nothingLeft, List.append_nil, ← List.cons_append] at layout
        have whole := List.append_cancel_right layout
        have clean := getLine_clean found
        rw [← whole] at clean
        exact fun inside => clean (inside.trans
          (List.suffix_cons 45 (asBytes text)).isInfix)
  · intro line
    refine ⟨.error text, fun later => ?_⟩
    have header := lineText_crlf (by decide : (45 : UInt8) ≠ 13) text line later
    rw [List.cons_append, List.cons_append] at header
    rw [List.cons_append, parse, parseRun_minus, parseError, parseLine, header]
    simp

/-- An error is a line that begins with its class. -/
theorem serialize_error (text : String) :
    serialize (.error text) =
      asBytes "-" ++ asBytes ("ERR " ++ text) ++ crlf := by
  rw [serialize, asBytes_append]
  rfl

section Lines

theorem oneLine_of_not_mem {text : String}
    (noReturn : (13 : UInt8) ∉ asBytes text) : OneLine text :=
  clean_of_not_mem noReturn

/-- Bytes before a text do not matter if they hold no carriage return. -/
theorem crlf_infix_append_left {front : Bytes} (noReturn : (13 : UInt8) ∉ front)
    (line : Bytes) : crlf <:+: front ++ line ↔ crlf <:+: line := by
  induction front with
  | nil => rfl
  | cons first front ih =>
      rw [List.mem_cons, not_or] at noReturn
      rw [← ih noReturn.2]
      constructor
      · intro inside
        by_contra clean
        exact clean_cons (Ne.symm noReturn.1) clean inside
      · intro inside
        exact inside.trans (List.suffix_cons first (front ++ line)).isInfix

/-- A byte after a text does not matter if it does not take part in a line
terminator. -/
theorem crlf_infix_append_right {last : UInt8} (ordinary : last ≠ 10)
    (line : Bytes) : crlf <:+: line ++ [last] ↔ crlf <:+: line := by
  constructor
  · intro inside
    induction line with
    | nil =>
        have short := inside.length_le
        simp [crlf] at short
    | cons first line ih =>
        rcases List.infix_cons_iff.mp inside with starts | inner
        · cases line with
          | nil => simp [crlf, List.prefix_cons_iff, Ne.symm ordinary] at starts
          | cons second line =>
              obtain ⟨others, same⟩ := starts
              simp only [crlf, List.cons_append, List.nil_append,
                List.cons.injEq] at same
              obtain ⟨rfl, rfl, -⟩ := same
              exact ⟨[], line, rfl⟩
        · exact (ih inner).trans (List.suffix_cons first line).isInfix
  · intro inside
    exact inside.trans ⟨[], [last], rfl⟩

theorem oneLine_append_left {front : String}
    (noReturn : (13 : UInt8) ∉ asBytes front) (text : String) :
    OneLine (front ++ text) ↔ OneLine text := by
  rw [OneLine, asBytes_append, crlf_infix_append_left noReturn, OneLine]

theorem oneLine_quoted (text : String) :
    OneLine (text ++ "'") ↔ OneLine text := by
  rw [OneLine, asBytes_append, OneLine]
  exact not_congr (crlf_infix_append_right (by decide) (asBytes text))

end Lines

/-- How a reply depends on the texts that it repeats.  A value holds them as
data; a line is a single one exactly when they are. -/
inductive Answers : List String → Bytes → Prop
  | value {value : Value} (plain : Plain value) : Answers [] (serialize value)
  | line {texts : List String} {text : String}
      (single : OneLine text ↔ ∀ repeated ∈ texts, OneLine repeated) :
      Answers texts (asBytes "-" ++ asBytes text ++ crlf)

namespace Answers

theorem error {texts : List String} {text : String}
    (single : OneLine text ↔ ∀ repeated ∈ texts, OneLine repeated) :
    Answers texts (serialize (.error text)) := by
  rw [serialize_error]
  exact .line ((oneLine_append_left (by decide) text).trans single)

/-- An error with a text of its own. -/
theorem fixed {text : String} (line : OneLine text) :
    Answers [] (serialize (.error text)) :=
  .error (by simpa using line)

theorem oneFrame_iff {texts : List String} {reply : Bytes}
    (answers : Answers texts reply) (fits : reply.length < 2 ^ 63) :
    OneFrame reply ↔ ∀ text ∈ texts, OneLine text := by
  cases answers with
  | value plain => simpa using plain.oneFrame fits
  | line single => exact oneFrame_line.trans single

end Answers

end Value

end RustiCache
