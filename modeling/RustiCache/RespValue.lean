import RustiCache.DecimalNumerals

/-!
# RESP values and their serialization

The wire protocol has five kinds of value.  Simple strings, errors and
integers occupy one line; bulk strings and arrays announce their length on a
first line, with `-1` standing for the null value.
-/

namespace RustiCache

/-- A RESP value. -/
inductive Value
  | simpleString (text : String)
  | error (text : String)
  | integer (number : Int64)
  | bulkString (data : Option Bytes)
  | array (items : Option (List Value))

namespace Value

mutual

def decEq : (first second : Value) → Decidable (first = second)
  | .simpleString first, .simpleString second =>
      decidable_of_iff (first = second) (by simp)
  | .error first, .error second =>
      decidable_of_iff (first = second) (by simp)
  | .integer first, .integer second =>
      decidable_of_iff (first = second) (by simp)
  | .bulkString first, .bulkString second =>
      decidable_of_iff (first = second) (by simp)
  | .array none, .array none => isTrue rfl
  | .array (some first), .array (some second) =>
      match decEqList first second with
      | isTrue same => isTrue (by rw [same])
      | isFalse differ => isFalse (by simpa using differ)
  | .array none, .array (some _) => isFalse (by simp)
  | .array (some _), .array none => isFalse (by simp)
  | .simpleString _, .error _ => isFalse (by simp)
  | .simpleString _, .integer _ => isFalse (by simp)
  | .simpleString _, .bulkString _ => isFalse (by simp)
  | .simpleString _, .array _ => isFalse (by simp)
  | .error _, .simpleString _ => isFalse (by simp)
  | .error _, .integer _ => isFalse (by simp)
  | .error _, .bulkString _ => isFalse (by simp)
  | .error _, .array _ => isFalse (by simp)
  | .integer _, .simpleString _ => isFalse (by simp)
  | .integer _, .error _ => isFalse (by simp)
  | .integer _, .bulkString _ => isFalse (by simp)
  | .integer _, .array _ => isFalse (by simp)
  | .bulkString _, .simpleString _ => isFalse (by simp)
  | .bulkString _, .error _ => isFalse (by simp)
  | .bulkString _, .integer _ => isFalse (by simp)
  | .bulkString _, .array _ => isFalse (by simp)
  | .array _, .simpleString _ => isFalse (by simp)
  | .array _, .error _ => isFalse (by simp)
  | .array _, .integer _ => isFalse (by simp)
  | .array _, .bulkString _ => isFalse (by simp)

def decEqList : (first second : List Value) → Decidable (first = second)
  | [], [] => isTrue rfl
  | [], _ :: _ => isFalse (by simp)
  | _ :: _, [] => isFalse (by simp)
  | first :: firsts, second :: seconds =>
      match decEq first second, decEqList firsts seconds with
      | isTrue sameHead, isTrue sameTail =>
          isTrue (by rw [sameHead, sameTail])
      | isFalse differ, _ => isFalse (by simp [differ])
      | _, isFalse differ => isFalse (by simp [differ])

end

instance : DecidableEq Value :=
  decEq

def ok : Value := .simpleString "OK"

def pong : Value := .simpleString "PONG"

def nullBulk : Value := .bulkString none

/-- A bulk string holding the bytes of a text. -/
def string (text : String) : Value := .bulkString (some (asBytes text))

def asBytes? : Value → Option Bytes
  | .bulkString (some data) => some data
  | _ => none

/-- The text of a simple string, or of a bulk string that is UTF-8. -/
def asStr : Value → Option String
  | .simpleString text => some text
  | .bulkString (some data) => (fromUtf8 data).toOption
  | _ => none

/-- The line terminator. -/
def crlf : Bytes := [13, 10]

mutual

/-- The bytes `serialize` appends to its output buffer. -/
def serialize : Value → Bytes
  | .simpleString text => asBytes "+" ++ asBytes text ++ crlf
  | .error text => asBytes "-ERR " ++ asBytes text ++ crlf
  | .integer number => asBytes ":" ++ signedDecimal number.toInt ++ crlf
  | .bulkString none => asBytes "$-1\r\n"
  | .bulkString (some data) =>
      asBytes "$" ++ decimal data.length ++ crlf ++ data ++ crlf
  | .array none => asBytes "*-1\r\n"
  | .array (some elements) =>
      asBytes "*" ++ decimal elements.length ++ crlf ++ serializeAll elements

/-- The elements of an array, one after the other. -/
def serializeAll : List Value → Bytes
  | [] => []
  | element :: elements => serialize element ++ serializeAll elements

end

end Value

end RustiCache
