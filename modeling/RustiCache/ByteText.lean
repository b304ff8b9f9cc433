import Mathlib.Data.List.Basic

/-!
# Byte strings and text

A byte buffer is a list of bytes.  Text is Lean's `String`, which like the
Rust type carries a proof that its bytes are well-formed UTF-8.  This file
fixes the conversions between the two and the few text operations used by the
protocol code: ASCII upper-casing, Unicode white space, and the splitting of a
line into words.
-/

namespace RustiCache

/-- A byte buffer. -/
abbrev Bytes := List UInt8

/-- The UTF-8 bytes of a text. -/
def asBytes (text : String) : Bytes :=
  text.toByteArray.data.toList

@[simp]
theorem asBytes_append (first second : String) :
    asBytes (first ++ second) = asBytes first ++ asBytes second := by
  simp [asBytes, String.toByteArray_append, ByteArray.data_append]

theorem asBytes_ofList (characters : List Char) :
    asBytes (String.ofList characters) =
      characters.flatMap String.utf8EncodeChar := by
  simp [asBytes, String.toByteArray_ofList, List.utf8Encode,
    List.data_toByteArray]

theorem toByteArray_asBytes (text : String) :
    (asBytes text).toByteArray = text.toByteArray := by
  apply ByteArray.ext
  simp [asBytes, List.data_toByteArray]

/-- Where and how a byte string stops being UTF-8: the length of its longest
valid prefix, and the number of offending bytes unless input ended early. -/
structure Utf8Error where
  validUpTo : Nat
  errorLen : Option Nat
  deriving DecidableEq, Repr

/-- The text an invalid byte string is reported with. -/
def Utf8Error.message (error : Utf8Error) : String :=
  let index := error.validUpTo
  match error.errorLen with
  | some count =>
      s!"invalid utf-8 sequence of {count} bytes from index {index}"
  | none => s!"incomplete utf-8 byte sequence from index {index}"

/-- Bytes `0x80` to `0xBF`, which continue a multi-byte character. -/
def isContinuation (byte : UInt8) : Bool :=
  0x80 ≤ byte && byte ≤ 0xBF

/-- The second bytes allowed after a three-byte lead; overlong forms and
surrogates are excluded here. -/
def secondOfThree (first second : UInt8) : Bool :=
  if first = 0xE0 then 0xA0 ≤ second && second ≤ 0xBF
  else if first = 0xED then 0x80 ≤ second && second ≤ 0x9F
  else isContinuation second

/-- The second bytes allowed after a four-byte lead. -/
def secondOfFour (first second : UInt8) : Bool :=
  if first = 0xF0 then 0x90 ≤ second && second ≤ 0xBF
  else if first = 0xF4 then 0x80 ≤ second && second ≤ 0x8F
  else isContinuation second

/-- The first UTF-8 error at or after `index`, scanning left to right. -/
def utf8Error (index : Nat) : Bytes → Option Utf8Error
  | [] => none
  | first :: rest =>
      if first < 0x80 then utf8Error (index + 1) rest
      else if 0xC2 ≤ first && first ≤ 0xDF then
        match rest with
        | [] => some ⟨index, none⟩
        | second :: rest =>
            if isContinuation second then utf8Error (index + 2) rest
            else some ⟨index, some 1⟩
      else if 0xE0 ≤ first && first ≤ 0xEF then
        match rest with
        | [] => some ⟨index, none⟩
        | second :: rest =>
            if secondOfThree first second then
              match rest with
              | [] => some ⟨index, none⟩
              | third :: rest =>
                  if isContinuation third then utf8Error (index + 3) rest
                  else some ⟨index, some 2⟩
            else some ⟨index, some 1⟩
      else if 0xF0 ≤ first && first ≤ 0xF4 then
        match rest with
        | [] => some ⟨index, none⟩
        | second :: rest =>
            if secondOfFour first second then
              match rest with
              | [] => some ⟨index, none⟩
              | third :: rest =>
                  if isContinuation third then
                    match rest with
                    | [] => some ⟨index, none⟩
                    | fourth :: rest =>
                        if isContinuation fourth then
                          utf8Error (index + 4) rest
                        else some ⟨index, some 3⟩
                  else some ⟨index, some 2⟩
            else some ⟨index, some 1⟩
      else some ⟨index, some 1⟩

/-- Read a byte string as text. -/
def fromUtf8 (bytes : Bytes) : Except Utf8Error String :=
  match String.fromUTF8? bytes.toByteArray with
  | some text => .ok text
  | none => .error ((utf8Error 0 bytes).getD ⟨0, none⟩)

theorem asBytes_of_fromUtf8 {bytes : Bytes} {text : String}
    (decoded : fromUtf8 bytes = .ok text) : asBytes text = bytes := by
  unfold fromUtf8 String.fromUTF8? at decoded
  split at decoded
  next found =>
    split at found
    · cases decoded
      cases found
      simp [asBytes, String.fromUTF8, List.data_toByteArray]
    · cases found
  next => cases decoded

@[simp]
theorem fromUtf8_asBytes (text : String) :
    fromUtf8 (asBytes text) = .ok text := by
  have found : String.fromUTF8? (asBytes text).toByteArray = some text := by
    rw [toByteArray_asBytes, String.fromUTF8?, dif_pos text.isValidUTF8]
    rfl
  simp [fromUtf8, found]

/-- Upper-case the ASCII letters and leave every other character alone. -/
def toAsciiUppercase (text : String) : String :=
  String.ofList (text.toList.map Char.toUpper)

/-- The characters with the Unicode property `White_Space`. -/
def isWhitespace (character : Char) : Bool :=
  let code := character.toNat
  (9 ≤ code && code ≤ 13) || code == 0x20 || code == 0x85 || code == 0xA0 ||
    code == 0x1680 || (0x2000 ≤ code && code ≤ 0x200A) || code == 0x2028 ||
    code == 0x2029 || code == 0x202F || code == 0x205F || code == 0x3000

/-- Remove white space from both ends. -/
def trim (text : String) : String :=
  String.ofList
    ((text.toList.dropWhile isWhitespace).reverse.dropWhile
      isWhitespace).reverse

/-- The maximal runs of characters that are not white space. -/
def splitWhitespace (text : String) : List String :=
  ((text.toList.splitOnP isWhitespace).filter fun word =>
    !word.isEmpty).map String.ofList

end RustiCache
