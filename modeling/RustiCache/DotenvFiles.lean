import RustiCache.SlotSpecifications
import RustiCache.TextLines
import RustiCache.TrimmedLists

/-!
# The file of settings

Before a server starts, the lines `key=value` of a file are made environment
variables.  A variable that is set already keeps its value, and of several lines
for one key the first counts.  White space around key and value and quotes around
the value do not belong to them.
-/

namespace RustiCache

/-- The variables of the process, whose values need not be text. -/
abbrev Environment := String → Option Bytes

namespace Environment

/-- The variable is not set, or its value is not text. -/
def varIsErr (env : Environment) (key : String) : Bool :=
  '\x00' ∈ key.toList ||
    match env key with
    | some value => !(fromUtf8 value).isOk
    | none => true

/-- Set a variable, which panics if a null character is to be passed on. -/
def setVar (env : Environment) (key value : String) : Option Environment :=
  if '\x00' ∈ key.toList ∨ '\x00' ∈ value.toList then
    none
  else
    some (Function.update env key (some (asBytes value)))

end Environment

namespace Dotenv

/-- The key and the value that a line sets. -/
def assignment (line : List Char) : Option (String × String) :=
  let trimmed := trimMatches isWhitespace line
  if trimmed = [] ∨ trimmed.head? = some '#' then
    none
  else
    (splitOnce '=' trimmed).bind fun (key, val) =>
      let key := trimMatches isWhitespace key
      let val := trimMatches (· == '\'')
        (trimMatches (· == '"') (trimMatches isWhitespace val))
      if key = [] then none else some (String.ofList key, String.ofList val)

/-- A key gets its value unless it has one. -/
def assign (env : Environment) (setting : String × String) :
    Option Environment :=
  if env.varIsErr setting.1 then env.setVar setting.1 setting.2 else some env

def loadLine (env : Environment) (line : List Char) : Option Environment :=
  match assignment line with
  | some setting => assign env setting
  | none => some env

/-- Load the file, if there is one and it is text. -/
def loadDotenv (file : Option Bytes) (env : Environment) :
    Option Environment :=
  match file.map fromUtf8 with
  | some (.ok content) => (lines [] content.toList).foldlM loadLine env
  | _ => some env

/-- The settings of a text, one after another. -/
def settings (content : String) : List (String × String) :=
  (lines [] content.toList).filterMap assignment

/-- The variables that a list of settings adds: for each key that has no value
yet, the first one. -/
def define (env : Environment) (assigned : List (String × String)) :
    Environment :=
  fun key =>
    if env.varIsErr key then
      ((assigned.lookup key).map asBytes).or (env key)
    else
      env key

/-- No setting that counts holds a null character. -/
def Settable (env : Environment) (assigned : List (String × String)) : Prop :=
  ∀ key value, assigned.lookup key = some value → env.varIsErr key = true →
    '\x00' ∉ key.toList ∧ '\x00' ∉ value.toList

theorem foldlM_loadLine (env : Environment) (texts : List (List Char)) :
    texts.foldlM loadLine env = (texts.filterMap assignment).foldlM assign env := by
  induction texts generalizing env with
  | nil => rfl
  | cons line texts ih =>
      rw [List.foldlM_cons, List.filterMap_cons, loadLine]
      cases assignment line with
      | none => exact ih env
      | some setting =>
          dsimp only
          rw [List.foldlM_cons]
          cases assign env setting with
          | none => rfl
          | some next => exact ih next

/-- A key that has been set counts as set. -/
theorem varIsErr_update {env : Environment} {key value : String}
    (settable : '\x00' ∉ key.toList) (other : String) :
    Environment.varIsErr
        (Function.update env key (some (asBytes value))) other =
      (other != key && env.varIsErr other) := by
  by_cases same : other = key
  · subst same
    have plain : ('\x00' ∈ other.toList) = False := by simp [settable]
    simp [Environment.varIsErr, plain, Except.isOk, Except.toBool]
  · have differ : (other != key) = true := by simpa using same
    rw [Environment.varIsErr, Function.update_of_ne same, differ, Bool.true_and]
    rfl

section Cons

variable {env : Environment} {key value : String}
  {assigned : List (String × String)}

theorem lookup_of_ne {other : String} (differ : other ≠ key) :
    ((key, value) :: assigned).lookup other = assigned.lookup other := by
  have unequal : (other == key) = false := by simpa using differ
  rw [List.lookup_cons, unequal]

/-- A setting for a key that has a value does not count. -/
theorem define_cons_of_set (isSet : env.varIsErr key = false) :
    define env ((key, value) :: assigned) = define env assigned := by
  funext other
  by_cases same : other = key
  · rw [define, define, same, isSet]
    rfl
  · rw [define, define, lookup_of_ne same]

theorem settable_cons_of_set (isSet : env.varIsErr key = false) :
    Settable env ((key, value) :: assigned) ↔ Settable env assigned := by
  refine forall_congr' fun other => forall_congr' fun found => ?_
  by_cases same : other = key
  · rw [same, isSet]
    simp
  · rw [lookup_of_ne same]

variable (unset : env.varIsErr key = true) (plain : '\x00' ∉ key.toList)

include unset plain

/-- A setting for another key counts, and no later one for this key. -/
theorem define_cons_of_unset :
    define env ((key, value) :: assigned) =
      define (Function.update env key (some (asBytes value))) assigned := by
  funext other
  by_cases same : other = key
  · subst same
    simp [define, varIsErr_update plain, unset]
  · have differ : (other != key) = true := by simpa using same
    rw [define, define, varIsErr_update plain, lookup_of_ne same,
      Function.update_of_ne same, differ, Bool.true_and]

theorem settable_cons_of_unset (plainValue : '\x00' ∉ value.toList) :
    Settable env ((key, value) :: assigned) ↔
      Settable (Function.update env key (some (asBytes value))) assigned := by
  refine forall_congr' fun other => forall_congr' fun found => ?_
  by_cases same : other = key
  · subst same
    have first : ((other, value) :: assigned).lookup other = some value := by
      simp
    rw [first, varIsErr_update plain]
    simp only [bne_self_eq_false, Bool.false_and, Bool.false_eq_true,
      false_implies, implies_true, iff_true, Option.some.injEq]
    rintro rfl _
    exact ⟨plain, plainValue⟩
  · have differ : (other != key) = true := by simpa using same
    rw [lookup_of_ne same, varIsErr_update plain, differ, Bool.true_and]

end Cons

/-- What the settings of a list do one after another. -/
theorem foldlM_assign_eq_some_iff (assigned : List (String × String))
    {env final : Environment} :
    assigned.foldlM assign env = some final ↔
      Settable env assigned ∧ final = define env assigned := by
  induction assigned generalizing env with
  | nil =>
      have same : define env [] = env := by
        funext key
        simp [define]
      rw [same]
      exact ⟨fun loaded => ⟨by simp [Settable], (Option.some.inj loaded).symm⟩,
        fun loaded => congrArg some loaded.2.symm⟩
  | cons setting assigned ih =>
      obtain ⟨key, value⟩ := setting
      rw [List.foldlM_cons, assign]
      dsimp only
      cases unset : env.varIsErr key with
      | false =>
          rw [define_cons_of_set unset, settable_cons_of_set unset]
          exact ih
      | true =>
          rw [if_pos rfl, Environment.setVar]
          by_cases null : '\x00' ∈ key.toList ∨ '\x00' ∈ value.toList
          · rw [if_pos null]
            refine iff_of_false (by simp) ?_
            rintro ⟨settable, -⟩
            obtain ⟨plain, plainValue⟩ := settable key value (by simp) unset
            exact null.elim plain plainValue
          · rw [if_neg null]
            obtain ⟨plain, plainValue⟩ := not_or.mp null
            rw [define_cons_of_unset unset plain,
              settable_cons_of_unset unset plain plainValue]
            exact ih

/-- A file that is text is loaded unless a setting that counts holds a null
character; every variable whose value was text keeps it, and every other one gets
the value of the first line for it, if there is one. -/
theorem loadDotenv_eq_some_iff (content : String) (env final : Environment) :
    loadDotenv (some (asBytes content)) env = some final ↔
      Settable env (settings content) ∧ final = define env (settings content) := by
  rw [loadDotenv, Option.map_some, fromUtf8_asBytes]
  dsimp only
  rw [foldlM_loadLine]
  exact foldlM_assign_eq_some_iff _

end Dotenv

/-- White space within a line. -/
structure Spaces where
  text : List Char
  blank : ∀ character ∈ text, isWhitespace character = true
  inline : '\n' ∉ text

/-- A key as it can be written in a line. -/
structure SettingKey where
  text : List Char
  nonempty : text ≠ []
  solid : ∀ character ∈ text, isWhitespace character = false
  undivided : '=' ∉ text
  uncommented : text.head? ≠ some '#'

inductive Quotes where
  | absent
  | single
  | double
deriving DecidableEq

def Quotes.mark : Quotes → List Char
  | absent => []
  | single => ['\'']
  | double => ['"']

def isQuote (character : Char) : Bool :=
  character == '\'' || character == '"'

/-- A value as it can be written in a line.  White space at its ends needs
quotes. -/
structure SettingValue where
  text : List Char
  quotes : Quotes
  inline : '\n' ∉ text
  unquoted : Tight isQuote text
  tight : quotes = .absent → Tight isWhitespace text

def SettingValue.render (value : SettingValue) : List Char :=
  value.quotes.mark ++ value.text ++ value.quotes.mark

inductive DotenvLine where
  | blank (padding : Spaces)
  | comment (padding : Spaces) (text : List Char) (inline : '\n' ∉ text)
  | setting (left : Spaces) (key : SettingKey) (before after : Spaces)
      (value : SettingValue) (right : Spaces)

namespace SettingValue

theorem unquoted_mark (value : SettingValue) (mark : Char)
    (isMark : isQuote mark = true) : Tight (· == mark) value.text := by
  have others : ∀ {character : Char}, isQuote character = false →
      (character == mark) = false := by
    intro character ordinary
    rw [beq_eq_false_iff_ne]
    rintro rfl
    rw [isMark] at ordinary
    cases ordinary
  exact ⟨fun character member => others (value.unquoted.first character member),
    fun character member => others (value.unquoted.last character member)⟩

/-- Quotes protect white space at the ends of a value. -/
theorem tight_render (value : SettingValue) :
    Tight isWhitespace value.render := by
  cases quotes : value.quotes with
  | absent =>
      simpa [render, quotes, Quotes.mark] using value.tight quotes
  | single =>
      rw [render, quotes]
      exact Tight.enclosed (by decide) value.text
  | double =>
      rw [render, quotes]
      exact Tight.enclosed (by decide) value.text

/-- The quotes come off again, of whichever kind they are. -/
theorem unquote_render (value : SettingValue) :
    trimMatches (· == '\'') (trimMatches (· == '"') value.render) =
      value.text := by
  have single := value.unquoted_mark '\'' (by decide)
  have double := value.unquoted_mark '"' (by decide)
  cases quotes : value.quotes with
  | absent =>
      rw [render, quotes, Quotes.mark, List.nil_append, List.append_nil,
        trimMatches_tight double, trimMatches_tight single]
  | single =>
      have kept : Tight (· == '"') value.render := by
        rw [render, quotes]
        exact Tight.enclosed (by decide) value.text
      rw [trimMatches_tight kept, render, quotes]
      exact trimMatches_padded (by simp [Quotes.mark]) single
        (by simp [Quotes.mark])
  | double =>
      have taken : trimMatches (· == '"') value.render = value.text := by
        rw [render, quotes]
        exact trimMatches_padded (by simp [Quotes.mark]) double
          (by simp [Quotes.mark])
      rw [taken, trimMatches_tight single]

end SettingValue

namespace SettingKey

theorem tight (key : SettingKey) : Tight isWhitespace key.text :=
  ⟨fun character member => key.solid character (List.mem_of_mem_head? member),
    fun character member => key.solid character (List.mem_of_getLast? member)⟩

end SettingKey

namespace DotenvLine

def render : DotenvLine → List Char
  | blank padding => padding.text
  | comment padding text _ => padding.text ++ '#' :: text
  | setting left key before after value right =>
      left.text ++ (key.text ++ before.text ++
        '=' :: (after.text ++ value.render ++ right.text))

/-- The setting that a line has been written for. -/
def content : DotenvLine → Option (String × String)
  | setting _ key _ _ value _ =>
      some (String.ofList key.text, String.ofList value.text)
  | _ => none

/-- The file that has these lines. -/
def file (written : List DotenvLine) : String :=
  String.ofList (written.flatMap fun line => line.render ++ ['\n'])

end DotenvLine

namespace Dotenv

/-- The carriage return before a line feed makes no difference. -/
theorem assignment_stripReturn (line : List Char) :
    assignment (stripReturn line) = assignment line := by
  have trimmed : trimMatches isWhitespace (stripReturn line) =
      trimMatches isWhitespace line := by
    rw [stripReturn]
    split
    next returned =>
      conv => rhs; rw [← List.dropLast_append_getLast? '\r' returned]
      refine (trimMatches_append_right ?_).symm
      simp [isWhitespace]
    next => rfl
  rw [assignment, assignment, trimmed]

/-- The parts of a line are told apart as they have been written. -/
theorem assignment_render (line : DotenvLine) :
    assignment line.render = line.content := by
  cases line with
  | blank padding =>
      have empty : trimMatches isWhitespace padding.text = [] := by
        rw [trimMatches, List.dropWhile_eq_nil_iff.mpr padding.blank]
        rfl
      rw [DotenvLine.render, assignment, empty]
      rfl
  | comment padding text inline =>
      have hash : isWhitespace '#' = false := by decide
      have trimmed : trimMatches isWhitespace (padding.text ++ '#' :: text) =
          '#' :: trimEnd isWhitespace text := by
        rw [trimMatches, List.dropWhile_append_of_pos padding.blank,
          List.dropWhile_cons_of_neg (by simp [hash])]
        exact trimEnd_append hash [] text
      rw [DotenvLine.render, assignment, trimmed]
      simp [DotenvLine.content]
  | setting left key before after value right =>
      have equals : isWhitespace '=' = false := by decide
      have undivided : '=' ∉ key.text ++ before.text := by
        intro member
        rcases List.mem_append.mp member with inKey | inSpaces
        · exact key.undivided inKey
        · rw [before.blank '=' inSpaces] at equals
          cases equals
      have name : trimMatches isWhitespace (key.text ++ before.text) =
          key.text := by
        rw [trimMatches_append_right before.blank, trimMatches_tight key.tight]
      have quoted : trimMatches isWhitespace (trimEnd isWhitespace
          (after.text ++ value.render ++ right.text)) = value.render := by
        rw [trimMatches_trimEnd]
        exact trimMatches_padded after.blank value.tight_render right.blank
      obtain ⟨first, others, spelled⟩ :=
        List.exists_cons_of_ne_nil key.nonempty
      have solid : isWhitespace first = false :=
        key.solid first (by rw [spelled]; exact List.mem_cons_self)
      have trimmed : trimMatches isWhitespace
          (DotenvLine.setting left key before after value right).render =
          key.text ++ before.text ++ '=' :: trimEnd isWhitespace
            (after.text ++ value.render ++ right.text) := by
        rw [DotenvLine.render, trimMatches,
          List.dropWhile_append_of_pos left.blank, spelled, List.cons_append,
          List.cons_append, List.dropWhile_cons_of_neg (by simp [solid])]
        exact trimEnd_append equals (first :: (others ++ before.text)) _
      have uncommented := key.uncommented
      rw [assignment, trimmed, splitOnce_append undivided]
      simp only [Option.bind_some, name, quoted, value.unquote_render]
      rw [if_neg, if_neg key.nonempty]
      · rfl
      · rw [spelled] at uncommented ⊢
        simpa using uncommented

theorem inline_of_solid {text : List Char}
    (solid : ∀ character ∈ text, isWhitespace character = false) :
    '\n' ∉ text := by
  intro member
  have ordinary := solid '\n' member
  revert ordinary
  decide

theorem inline_render (line : DotenvLine) : '\n' ∉ line.render := by
  cases line with
  | blank padding => exact padding.inline
  | comment padding text inline =>
      simp [DotenvLine.render, padding.inline, inline]
  | setting left key before after value right =>
      have marks : '\n' ∉ value.quotes.mark := by
        cases value.quotes <;> decide
      simp [DotenvLine.render, SettingValue.render, left.inline,
        inline_of_solid key.solid, before.inline, after.inline, marks,
        value.inline, right.inline]

/-- The settings of a file are those it has been written for. -/
theorem settings_file (written : List DotenvLine) :
    settings (DotenvLine.file written) =
      written.filterMap DotenvLine.content := by
  rw [settings, DotenvLine.file, String.toList_ofList]
  induction written with
  | nil => rfl
  | cons line written ih =>
      rw [List.flatMap_cons, List.append_assoc, List.singleton_append,
        lines_terminated (inline_render line), List.nil_append,
        List.filterMap_cons, List.filterMap_cons, assignment_stripReturn,
        assignment_render, ih]

/-- A file of blank lines, comments and settings, in any order and with any white
space and quotes, sets the variables it has been written for, the first time each
is listed and unless it has a value already. -/
theorem file_loaded (written : List DotenvLine) (env : Environment)
    (settable : Settable env (written.filterMap DotenvLine.content)) :
    loadDotenv (some (asBytes (DotenvLine.file written))) env =
      some (define env (written.filterMap DotenvLine.content)) := by
  rw [loadDotenv, Option.map_some, fromUtf8_asBytes]
  dsimp only
  rw [foldlM_loadLine, foldlM_assign_eq_some_iff]
  have same := settings_file written
  rw [settings] at same
  rw [same]
  exact ⟨settable, rfl⟩

/-- A comment and two lines for one key. -/
def sampleLines : List DotenvLine :=
  let none : Spaces := ⟨[], by simp, by simp⟩
  let one : Spaces := ⟨[' '], by simp [isWhitespace], by simp⟩
  let port : SettingKey :=
    ⟨"PORT".toList, by simp, by simp [isWhitespace], by simp, by simp⟩
  [.comment one "the port".toList (by simp),
    .setting none port one one
      ⟨"6379".toList, .double, by simp, by constructor <;> simp [isQuote],
        by simp⟩ one,
    .setting none port none none
      ⟨"7000".toList, .absent, by simp, by constructor <;> simp [isQuote],
        fun _ => by constructor <;> simp [isWhitespace]⟩ none]

theorem file_loaded_sampleLines :
    DotenvLine.file sampleLines =
        " #the port\nPORT = \"6379\" \nPORT=7000\n" ∧
      loadDotenv (some (asBytes (DotenvLine.file sampleLines)))
          (fun _ => none) =
        some (define (fun _ => none) [("PORT", "6379"), ("PORT", "7000")]) := by
  have settings : sampleLines.filterMap DotenvLine.content =
      [("PORT", "6379"), ("PORT", "7000")] := rfl
  refine ⟨rfl, ?_⟩
  rw [← settings]
  refine file_loaded sampleLines (fun _ => none) ?_
  rw [settings]
  intro key value found _
  by_cases same : key = "PORT"
  · subst same
    cases found
    decide
  · rw [lookup_of_ne same, lookup_of_ne same] at found
    cases found

end Dotenv

end RustiCache
