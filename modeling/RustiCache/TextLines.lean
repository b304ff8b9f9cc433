import Mathlib.Data.List.TakeDrop
import RustiCache.ByteText

/-!
# Lines and words of a text

A text is cut into lines at line feeds, into words at white space, and in two at
the first or the last place where a character stands.  Each of these undoes the
corresponding way of putting a text together.
-/

namespace RustiCache

/-- Take off the carriage return of a line that ended with a line feed. -/
def stripReturn (line : List Char) : List Char :=
  if line.getLast? = some '\r' then line.dropLast else line

/-- The lines of a text of whose first line some characters have been read.  The
last line need not be terminated. -/
def lines (current : List Char) : List Char → List (List Char)
  | [] => if current = [] then [] else [current]
  | character :: rest =>
      if character = '\n' then
        stripReturn current :: lines [] rest
      else
        lines (current ++ [character]) rest

/-- Cut a text at the first place where the separator stands. -/
def splitOnce (separator : Char) (text : List Char) :
    Option (List Char × List Char) :=
  match text.span (· != separator) with
  | (_, []) => none
  | (front, _ :: back) => some (front, back)

/-- Cut a text at the last place where the separator stands. -/
def rsplitOnce (separator : Char) (text : List Char) :
    Option (List Char × List Char) :=
  (splitOnce separator text.reverse).map fun cut =>
    (cut.2.reverse, cut.1.reverse)

theorem lines_terminated {line : List Char} (inline : '\n' ∉ line)
    (current rest : List Char) :
    lines current (line ++ '\n' :: rest) =
      stripReturn (current ++ line) :: lines [] rest := by
  induction line generalizing current with
  | nil => simp [lines]
  | cons character line ih =>
      obtain ⟨ordinary, others⟩ := List.ne_and_not_mem_of_not_mem_cons inline
      rw [List.cons_append, lines, if_neg (Ne.symm ordinary), ih others,
        List.append_assoc]
      rfl

/-- Lines that end with a carriage return and a line feed. -/
theorem lines_flatMap {texts : List (List Char)}
    (inline : ∀ text ∈ texts, '\n' ∉ text) :
    lines [] (texts.flatMap fun text => text ++ ['\r', '\n']) = texts := by
  induction texts with
  | nil => rfl
  | cons text texts ih =>
      have ends : '\n' ∉ text ++ ['\r'] := by
        have first := inline text (by simp)
        simp [first]
      have layout : text ++ ['\r', '\n'] = (text ++ ['\r']) ++ ['\n'] := by simp
      rw [List.flatMap_cons, layout, List.append_assoc, List.singleton_append,
        lines_terminated ends, ih fun other member =>
          inline other (List.mem_cons_of_mem text member)]
      simp [stripReturn]

section Cuts

variable {separator : Char} {front back : List Char}

theorem splitOnce_append (undivided : separator ∉ front) (back : List Char) :
    splitOnce separator (front ++ separator :: back) = some (front, back) := by
  have ordinary : ∀ character ∈ front, (character != separator) = true := by
    intro character member
    rw [bne_iff_ne]
    rintro rfl
    exact undivided member
  rw [splitOnce, List.span_eq_takeWhile_dropWhile,
    List.takeWhile_append_of_pos ordinary,
    List.dropWhile_append_of_pos ordinary]
  simp

theorem rsplitOnce_append (undivided : separator ∉ back) (front : List Char) :
    rsplitOnce separator (front ++ separator :: back) = some (front, back) := by
  have reversed : (front ++ separator :: back).reverse =
      back.reverse ++ separator :: front.reverse := by
    simp
  rw [rsplitOnce, reversed,
    splitOnce_append (by simpa using undivided) front.reverse]
  simp

end Cuts

/-- A text that is not empty and has no white space. -/
structure IsWord (text : String) : Prop where
  nonempty : text ≠ ""
  solid : ∀ character ∈ text.toList, isWhitespace character = false

theorem isWord_of_all {text : String} (nonempty : text ≠ "")
    (checked : text.toList.all fun character => !isWhitespace character) :
    IsWord text := by
  refine ⟨nonempty, fun character member => ?_⟩
  simpa using List.all_eq_true.mp checked character member

theorem splitOnP_intercalate {words : List String}
    (each : ∀ word ∈ words, IsWord word) (nonempty : words ≠ []) :
    (List.intercalate [' '] (words.map String.toList)).splitOnP isWhitespace =
      words.map String.toList := by
  induction words with
  | nil => exact absurd rfl nonempty
  | cons word words ih =>
      have first : IsWord word := each word (by simp)
      cases words with
      | nil => simp [List.splitOnP_eq_singleton first.solid]
      | cons next others =>
          have rest := ih (fun other member =>
            each other (List.mem_cons_of_mem word member)) (by simp)
          rw [List.map_cons] at rest ⊢
          rw [List.map_cons, List.intercalate_cons_cons, List.append_assoc,
            List.singleton_append,
            List.splitOnP_append_cons_of_forall_mem first.solid ' ' (by decide),
            rest]

theorem not_mem_intercalate {character : Char} (differs : character ≠ ' ')
    {words : List String} (outside : ∀ word ∈ words, character ∉ word.toList) :
    character ∉ (" ".intercalate words).toList := by
  induction words with
  | nil => simp
  | cons word words ih =>
      have first := outside word (by simp)
      have rest := ih fun other member =>
        outside other (List.mem_cons_of_mem word member)
      cases words with
      | nil => simpa using first
      | cons next others =>
          rw [String.intercalate_cons_cons]
          simp only [String.toList_append, List.mem_append, not_or]
          exact ⟨⟨first, by simpa using differs⟩, rest⟩

/-- Words that are put together with spaces are told apart. -/
theorem splitWhitespace_intercalate {words : List String}
    (each : ∀ word ∈ words, IsWord word) (nonempty : words ≠ []) :
    splitWhitespace (" ".intercalate words) = words := by
  have filled : ∀ text ∈ words.map String.toList, (!text.isEmpty) = true := by
    intro text member
    obtain ⟨word, inWords, rfl⟩ := List.mem_map.mp member
    simpa using (each word inWords).nonempty
  have letters : (" ".intercalate words).toList =
      List.intercalate [' '] (words.map String.toList) := by
    simp
  rw [splitWhitespace, letters, splitOnP_intercalate each nonempty,
    List.filter_eq_self.mpr filled, List.map_map]
  simp

end RustiCache
