import Mathlib.Data.List.TakeDrop
import Mathlib.Data.List.TakeWhile
import RustiCache.DecimalNumerals
import RustiCache.SlotAssignment

/-!
# Slot specifications

A slot specification is a list of pieces with commas between them.  A piece is a
range of slots with white space around it, or white space alone.  Reading such a
specification assigns the ranges it was written for, in their order, and nothing
else.
-/

namespace RustiCache

/-- A text of white space. -/
structure Blanks where
  text : String
  blank : ∀ character ∈ text.toList, isWhitespace character = true

/-- A text that a test has found to be white space. -/
def Blanks.ofAll (text : String)
    (checked : text.toList.all isWhitespace = true) : Blanks where
  text := text
  blank := List.all_eq_true.mp checked

/-- A range of slots. -/
structure SlotSpan where
  start : UInt16
  last : UInt16
  ordered : start ≤ last
  inside : last < hashSlots

/-- A piece of a specification. -/
inductive SpecPiece where
  | blank (padding : Blanks)
  | range (left : Blanks) (span : SlotSpan) (right : Blanks)

namespace SlotSpan

def bounds (span : SlotSpan) : UInt16 × UInt16 :=
  (span.start, span.last)

end SlotSpan

namespace SpecPiece

def render : SpecPiece → String
  | blank padding => padding.text
  | range left span right =>
      left.text ++ ClusterTopology.formatRange span.bounds ++ right.text

def bounds : SpecPiece → Option (UInt16 × UInt16)
  | blank _ => none
  | range _ span _ => some span.bounds

/-- The specification that has these pieces. -/
def specification (pieces : List SpecPiece) : String :=
  ",".intercalate (pieces.map render)

end SpecPiece

section Trimming

theorem dropWhile_padded {α : Type} {drop : α → Bool} {left text : List α}
    (right : List α) (padding : ∀ item ∈ left, drop item = true)
    (nonempty : text ≠ [])
    (solid : ∀ item ∈ text, drop item = false) :
    (left ++ (text ++ right)).dropWhile drop = text ++ right := by
  rw [List.dropWhile_append_of_pos padding]
  obtain ⟨first, others, rfl⟩ := List.exists_cons_of_ne_nil nonempty
  rw [List.cons_append, List.dropWhile_cons_of_neg (by simp [solid first])]

/-- Trimming takes off what has been put around a text. -/
theorem trim_padded (left right : Blanks) {text : String}
    (nonempty : text.toList ≠ [])
    (solid : ∀ character ∈ text.toList, isWhitespace character = false) :
    trim (left.text ++ text ++ right.text) = text := by
  rw [trim, String.append_assoc, String.toList_append, String.toList_append,
    dropWhile_padded right.text.toList left.blank nonempty solid]
  have rest : ((text.toList ++ right.text.toList).reverse.dropWhile
      isWhitespace) = text.toList.reverse := by
    have padding : ∀ character ∈ right.text.toList.reverse,
        isWhitespace character = true := fun character member =>
      right.blank character (List.mem_reverse.mp member)
    have back := dropWhile_padded [] padding
      (List.reverse_ne_nil_iff.mpr nonempty)
      (fun character member => solid character (List.mem_reverse.mp member))
    simpa using back
  rw [rest, List.reverse_reverse, String.ofList_toList]

theorem trim_solid {text : String} (nonempty : text.toList ≠ [])
    (solid : ∀ character ∈ text.toList, isWhitespace character = false) :
    trim text = text := by
  have trimmed := trim_padded ⟨"", by simp⟩ ⟨"", by simp⟩ nonempty solid
  simpa using trimmed

theorem trim_blank (padding : Blanks) : trim padding.text = "" := by
  rw [trim, List.dropWhile_eq_nil_iff.mpr padding.blank]
  rfl

end Trimming

namespace ClusterTopology

theorem toList_number (number : UInt16) :
    (toString number).toList = Nat.toDigits 10 number.toNat := by
  change (Nat.repr number.toNat).toList = _
  simp [Nat.repr]

theorem number_ne_nil (number : UInt16) : (toString number).toList ≠ [] := by
  intro empty
  apply decimal_ne_nil number.toNat
  change asBytes (toString number) = []
  rw [String.toList_eq_nil_iff.mp empty]
  rfl

theorem isDigit_of_mem_number {number : UInt16} {character : Char}
    (member : character ∈ (toString number).toList) :
    character.isDigit = true := by
  rw [toList_number] at member
  exact Nat.isDigit_of_mem_toDigits (by decide) (by decide) member

theorem isWhitespace_digit {character : Char}
    (digit : character.isDigit = true) : isWhitespace character = false := by
  have range : 48 ≤ character.toNat ∧ character.toNat ≤ 57 :=
    Char.isDigit_iff_toNat.mp digit
  simp only [isWhitespace, Bool.or_eq_false_iff, Bool.and_eq_false_iff,
    decide_eq_false_iff_not, beq_eq_false_iff_ne]
  omega

/-- The characters of a range are digits and the hyphen. -/
theorem mem_formatRange {bounds : UInt16 × UInt16} {character : Char}
    (member : character ∈ (formatRange bounds).toList) :
    character.isDigit = true ∨ character = '-' := by
  rw [formatRange] at member
  split at member
  next => exact Or.inl (isDigit_of_mem_number member)
  next =>
    simp only [String.toList_append, List.mem_append] at member
    rcases member with (first | hyphen) | second
    · exact Or.inl (isDigit_of_mem_number first)
    · exact Or.inr (by simpa using hyphen)
    · exact Or.inl (isDigit_of_mem_number second)

theorem number_solid (number : UInt16) :
    ∀ character ∈ (toString number).toList, isWhitespace character = false := by
  intro character member
  exact isWhitespace_digit (isDigit_of_mem_number member)

theorem formatRange_solid (bounds : UInt16 × UInt16) :
    ∀ character ∈ (formatRange bounds).toList,
      isWhitespace character = false := by
  intro character member
  rcases mem_formatRange member with digit | rfl
  · exact isWhitespace_digit digit
  · decide

theorem parseBound_number (number : UInt16) :
    parseBound (toString number) = .ok number := by
  have bound := number.toNat_lt
  have read : u16.parse (asBytes (toString number)) = .ok (number.toNat : Int) :=
    u16.parse_decimal number.toNat (by
      change (number.toNat : Int) ≤ 65535
      omega)
  rw [parseBound, read]
  simp

/-- A range is read as it has been written. -/
theorem parseRange_formatRange (bounds : UInt16 × UInt16) :
    parseRange (formatRange bounds) = .ok bounds := by
  have noHyphen (number : UInt16) :
      ∀ character ∈ (toString number).toList, (character != '-') = true := by
    intro character member
    have digit := isDigit_of_mem_number member
    rw [bne_iff_ne]
    rintro rfl
    cases digit
  by_cases single : bounds.1 = bounds.2
  · rw [formatRange, if_pos single, parseRange,
      List.span_eq_takeWhile_dropWhile,
      List.dropWhile_eq_nil_iff.mpr (noHyphen bounds.1)]
    dsimp only
    rw [parseBound_number]
    exact congrArg Except.ok (Prod.ext rfl single)
  · have cut : (toString bounds.1 ++ "-" ++ toString bounds.2).toList =
        (toString bounds.1).toList ++ '-' :: (toString bounds.2).toList := by
      simp
    rw [formatRange, if_neg single, parseRange, cut,
      List.span_eq_takeWhile_dropWhile,
      List.takeWhile_append_of_pos (noHyphen bounds.1),
      List.dropWhile_append_of_pos (noHyphen bounds.1)]
    simp [trim_solid (number_ne_nil _) (number_solid _), parseBound_number]

/-- A node has been given the listed slots, and its list has been extended by
the ranges.  Who owns a slot is a copy of the node made at the assignment, so its
own list of slots may be an earlier one. -/
structure Allots (topology : ClusterTopology) (nodeId : String)
    (node : ClusterNode) (ranges : List (UInt16 × UInt16))
    (next : ClusterTopology) : Prop where
  myselfId_eq : next.myselfId = topology.myselfId
  own : AList.lookup nodeId next.nodes =
    some { node with slots := node.slots ++ ranges }
  others : ∀ id, id ≠ nodeId →
    AList.lookup id next.nodes = AList.lookup id topology.nodes
  listed : ∀ slot, Listed slot ranges →
    ∃ slots, next.getNodeForSlot slot = some { node with slots := slots }
  unlisted : ∀ slot, ¬ Listed slot ranges →
    next.getNodeForSlot slot = topology.getNodeForSlot slot

namespace Allots

variable {topology middle next : ClusterTopology} {nodeId : String}
  {node : ClusterNode} {first second : List (UInt16 × UInt16)}

protected theorem refl (found : AList.lookup nodeId topology.nodes = some node) :
    Allots topology nodeId node [] topology where
  myselfId_eq := rfl
  own := by simpa using found
  others _ _ := rfl
  listed slot inRange := absurd inRange (not_listed_nil slot)
  unlisted _ _ := rfl

protected theorem trans (before : Allots topology nodeId node first middle)
    (after : Allots middle nodeId { node with slots := node.slots ++ first }
      second next) :
    Allots topology nodeId node (first ++ second) next where
  myselfId_eq := after.myselfId_eq.trans before.myselfId_eq
  own := by
    rw [after.own, List.append_assoc]
  others id differ := (after.others id differ).trans (before.others id differ)
  listed slot inRange := by
    by_cases later : Listed slot second
    · exact after.listed slot later
    · have earlier : Listed slot first :=
        (listed_append.mp inRange).resolve_right later
      rw [after.unlisted slot later]
      exact before.listed slot earlier
  unlisted slot outside := by
    rw [listed_append, not_or] at outside
    exact (after.unlisted slot outside.2).trans (before.unlisted slot outside.1)

end Allots

theorem listed_span {slot : UInt16} {span : SlotSpan} :
    Listed slot [span.bounds] ↔
      span.start.toNat ≤ slot.toNat ∧ slot.toNat ≤ span.last.toNat := by
  rw [listed_singleton, InRange, UInt16.le_iff_toNat_le, UInt16.le_iff_toNat_le]
  rfl

/-- The slot table after the slots of a range have been assigned. -/
theorem getD_assign_span (node : ClusterNode) (span : SlotSpan)
    (owners : List (Option ClusterNode)) (slot : UInt16)
    (inTable : slot.toNat < owners.length) :
    (assign node span.start.toNat
        (span.last.toNat + 1 - span.start.toNat) owners).getD slot.toNat none =
      if Listed slot [span.bounds] then some node
      else owners.getD slot.toNat none := by
  rw [assign_getD _ _ _ _ _ inTable]
  apply if_congr _ rfl rfl
  have ordered := UInt16.le_iff_toNat_le.mp span.ordered
  rw [listed_span]
  omega

theorem addSlotsRange_allots {topology : ClusterTopology} {nodeId : String}
    {node : ClusterNode}
    (found : AList.lookup nodeId topology.nodes = some node) (span : SlotSpan) :
    ∃ next, topology.addSlotsRange nodeId span.start span.last = .ok next ∧
      Allots topology nodeId node [span.bounds] next := by
  have valid : ¬ (decide (span.last < span.start) ||
      decide (hashSlots ≤ span.last)) = true := by
    simpa using ⟨span.ordered, span.inside⟩
  have inTable {slot : UInt16} (inRange : Listed slot [span.bounds]) :
      slot.toNat < topology.slotToNode.length := by
    have bound := UInt16.lt_iff_toNat_lt.mp span.inside
    have slots : hashSlots.toNat = 16384 := by decide
    rw [topology.slotToNode_length]
    have upper := (listed_span.mp inRange).2
    omega
  rw [addSlotsRange, if_neg valid, found]
  refine ⟨_, rfl, rfl, ?_, ?_, ?_, ?_⟩
  · rw [Table.lookup_replace nodeId _ found, if_pos rfl]
    rfl
  · intro id differ
    rw [Table.lookup_replace id _ found, if_neg differ]
  · intro slot inRange
    refine ⟨node.slots, ?_⟩
    rw [getNodeForSlot]
    dsimp only
    rw [assign_length, if_pos (inTable inRange),
      getD_assign_span node span _ slot (inTable inRange), if_pos inRange]
  · intro slot outside
    rw [getNodeForSlot, getNodeForSlot]
    dsimp only
    rw [assign_length]
    split
    next inside =>
      rw [getD_assign_span node span _ slot inside, if_neg outside]
    next => rfl

/-- Reading the pieces one after another assigns the ranges among them. -/
theorem assignParts_render (pieces : List SpecPiece) {topology : ClusterTopology}
    {nodeId : String} {node : ClusterNode}
    (found : AList.lookup nodeId topology.nodes = some node) :
    ∃ next,
      assignParts nodeId (pieces.map SpecPiece.render) topology =
        (.ok (), next) ∧
      Allots topology nodeId node (pieces.filterMap SpecPiece.bounds) next := by
  induction pieces generalizing topology node with
  | nil => exact ⟨topology, rfl, .refl found⟩
  | cons piece pieces ih =>
      rw [List.map_cons, assignParts]
      cases piece with
      | blank padding =>
          rw [SpecPiece.render, if_pos (trim_blank padding)]
          exact ih found
      | range left span right =>
          have nonempty : (formatRange span.bounds).toList ≠ [] := by
            rw [formatRange]
            split
            next => exact number_ne_nil _
            next => simp
          have trimmed := trim_padded left right nonempty (formatRange_solid _)
          have read : parseRange (formatRange span.bounds) =
              .ok (span.start, span.last) :=
            parseRange_formatRange span.bounds
          rw [SpecPiece.render, trimmed, if_neg, read]
          · obtain ⟨middle, added, allots⟩ := addSlotsRange_allots found span
            obtain ⟨next, assigned, more⟩ := ih allots.own
            refine ⟨next, ?_, allots.trans more⟩
            dsimp only
            rw [added]
            exact assigned
          · intro empty
            rw [empty] at nonempty
            exact nonempty rfl

theorem comma_not_mem_render (piece : SpecPiece) :
    ',' ∉ piece.render.toList := by
  have notBlank (padding : Blanks) : ',' ∉ padding.text.toList := by
    intro member
    exact absurd (padding.blank ',' member) (by decide)
  cases piece with
  | blank padding => exact notBlank padding
  | range left span right =>
      intro member
      simp only [SpecPiece.render, String.toList_append, List.mem_append]
        at member
      rcases member with (inLeft | inRange) | inRight
      · exact notBlank left inLeft
      · rcases mem_formatRange inRange with digit | hyphen
        · exact absurd digit (by decide)
        · exact absurd hyphen (by decide)
      · exact notBlank right inRight

theorem splitOn_specification {pieces : List SpecPiece} (some : pieces ≠ []) :
    ((SpecPiece.specification pieces).toList.splitOn ',').map String.ofList =
      pieces.map SpecPiece.render := by
  have separated : ∀ text ∈ (pieces.map SpecPiece.render).map String.toList,
      ',' ∉ text := by
    intro text member
    simp only [List.map_map, List.mem_map] at member
    obtain ⟨piece, -, rfl⟩ := member
    exact comma_not_mem_render piece
  rw [SpecPiece.specification, String.toList_intercalate]
  change ((([','] : List Char).intercalate _).splitOn ',').map _ = _
  rw [List.splitOn_intercalate ',' separated (by simpa using some), List.map_map]
  simp [Function.comp_def]

/-- A specification is read exactly as it was written: the assignment succeeds,
the node gets the slots of the listed ranges and no others, its list is extended
by these ranges in order, and all other slots and nodes stay as they were. -/
theorem specification_assigned {topology : ClusterTopology} {nodeId : String}
    {node : ClusterNode}
    (found : AList.lookup nodeId topology.nodes = some node)
    (pieces : List SpecPiece) :
    ∃ next,
      topology.parseAndAssignSlots nodeId (SpecPiece.specification pieces) =
        (.ok (), next) ∧
      Allots topology nodeId node (pieces.filterMap SpecPiece.bounds) next := by
  rw [parseAndAssignSlots]
  cases pieces with
  | nil => exact ⟨topology, rfl, .refl found⟩
  | cons piece pieces =>
      rw [splitOn_specification (List.cons_ne_nil piece pieces)]
      exact assignParts_render (piece :: pieces) found

/-- A tab and a space around a range, an empty piece and a single slot. -/
def samplePieces : List SpecPiece :=
  let none := Blanks.ofAll "" (by decide)
  [.range (.ofAll "\t" (by decide)) ⟨0, 5, by decide, by decide⟩
      (.ofAll " " (by decide)),
    .blank none, .range none ⟨16383, 16383, by decide, by decide⟩ none]

theorem specification_assigned_samplePieces :
    let node := ClusterNode.new "a" "10.0.0.1" 6379 16379 true true
    SpecPiece.specification samplePieces = "\t0-5 ,,16383" ∧
      ∃ next,
        (new node).parseAndAssignSlots "a"
            (SpecPiece.specification samplePieces) = (.ok (), next) ∧
          Allots (new node) "a" node [(0, 5), (16383, 16383)] next := by
  intro node
  have found : AList.lookup "a" (new node).nodes = some node := by
    rw [lookup_new]
    rfl
  exact ⟨by decide, specification_assigned found samplePieces⟩

end ClusterTopology

end RustiCache
