import RustiCache.HashSlots
import Mathlib.Tactic.Common

/-!
# Hash tags

The first brace of a key that opens a tag counts, and the first one behind it
that closes it.  A tag has no closing brace, so a tag that is taken for a key is
its own tag.
-/

namespace RustiCache

section Search

variable {symbol : UInt8} {bytes : Bytes}

theorem findIdx?_of_not_mem (absent : symbol ∉ bytes) :
    bytes.findIdx? (· == symbol) = none := by
  rw [List.findIdx?_eq_none_iff]
  intro byte member
  rw [beq_eq_false_iff_ne]
  rintro rfl
  exact absent member

/-- The search stops at the first occurrence. -/
theorem findIdx?_append_cons (absent : symbol ∉ bytes) (rest : Bytes) :
    (bytes ++ symbol :: rest).findIdx? (· == symbol) = some bytes.length := by
  rw [List.findIdx?_append, findIdx?_of_not_mem absent, List.findIdx?_cons]
  simp

end Search

/-- The tag of a key stands between its first opening brace and the first closing
brace behind that, and is not empty. -/
structure Tagged (key front tag rest : Bytes) : Prop where
  split : key = front ++ 0x7b :: (tag ++ 0x7d :: rest)
  opens : 0x7b ∉ front
  nonempty : tag ≠ []
  closes : 0x7d ∉ tag

/-- The key has the tag. -/
def HasTag (key tag : Bytes) : Prop :=
  ∃ front rest, Tagged key front tag rest

theorem drop_opening (front rest : Bytes) :
    (front ++ 0x7b :: rest).drop (front.length + 1) = rest := by
  rw [← List.drop_drop, List.drop_left]
  rfl

theorem HasTag.extractHashtag_eq {key tag : Bytes} (hasTag : HasTag key tag) :
    extractHashtag key = tag := by
  obtain ⟨front, rest, rfl, opens, nonempty, closes⟩ := hasTag
  have positive : 0 < tag.length := List.length_pos_of_ne_nil nonempty
  simp only [extractHashtag, findIdx?_append_cons opens, drop_opening,
    findIdx?_append_cons closes, if_pos positive, List.take_left]

theorem extractHashtag_of_no_opening {key : Bytes} (plain : 0x7b ∉ key) :
    extractHashtag key = key := by
  rw [extractHashtag, findIdx?_of_not_mem plain]

theorem extractHashtag_of_no_closing {key : Bytes} (plain : 0x7d ∉ key) :
    extractHashtag key = key := by
  rw [extractHashtag]
  split
  next start found =>
    have absent : 0x7d ∉ key.drop (start + 1) := fun member =>
      plain (List.mem_of_mem_drop member)
    rw [findIdx?_of_not_mem absent]
  next => rfl

/-- Without a tag the whole key counts. -/
theorem extractHashtag_of_untagged {key : Bytes}
    (untagged : ∀ tag, ¬ HasTag key tag) : extractHashtag key = key := by
  by_cases opens : 0x7b ∈ key
  · obtain ⟨front, behind, split, first⟩ := List.eq_append_cons_of_mem opens
    rw [split, extractHashtag, findIdx?_append_cons first]
    simp only [drop_opening]
    by_cases closes : 0x7d ∈ behind
    · obtain ⟨tag, rest, rfl, closing⟩ := List.eq_append_cons_of_mem closes
      have empty : tag = [] := by
        by_contra nonempty
        exact untagged tag ⟨front, rest, split, first, nonempty, closing⟩
      subst empty
      rw [findIdx?_append_cons closing]
      rfl
    · rw [findIdx?_of_not_mem closes]
  · exact extractHashtag_of_no_opening opens

/-- The tag of a key has no closing brace, so it has no tag of its own. -/
theorem HasTag.extractHashtag_tag {key tag : Bytes} (hasTag : HasTag key tag) :
    extractHashtag tag = tag := by
  obtain ⟨front, rest, tagged⟩ := hasTag
  exact extractHashtag_of_no_closing tagged.closes

theorem extractHashtag_idem (key : Bytes) :
    extractHashtag (extractHashtag key) = extractHashtag key := by
  by_cases untagged : ∀ tag, ¬ HasTag key tag
  · rw [extractHashtag_of_untagged untagged,
      extractHashtag_of_untagged untagged]
  · push Not at untagged
    obtain ⟨tag, hasTag⟩ := untagged
    rw [hasTag.extractHashtag_eq, hasTag.extractHashtag_tag]

theorem keySlot_extractHashtag (key : Bytes) :
    keySlot (extractHashtag key) = keySlot key := by
  rw [keySlot, keySlot, extractHashtag_idem]

theorem HasTag.keySlot_eq {key tag : Bytes} (hasTag : HasTag key tag) :
    keySlot key = keySlot tag := by
  rw [← keySlot_extractHashtag key, hasTag.extractHashtag_eq]

/-- Masking a checksum takes it modulo the number of slots. -/
theorem toNat_keySlot (key : Bytes) :
    (keySlot key).toNat = (crc16 (extractHashtag key)).toNat % 16384 := by
  rw [keySlot, UInt16.toNat_and]
  exact Nat.and_two_pow_sub_one_eq_mod _ 14

theorem HasTag.toNat_keySlot {key tag : Bytes} (hasTag : HasTag key tag) :
    (keySlot tag).toNat = (crc16 tag).toNat % 16384 := by
  rw [RustiCache.toNat_keySlot, hasTag.extractHashtag_tag]

/-- A tagged key falls into the slot of its tag, and so do all keys with that
tag. -/
theorem hashtag_colocates (key : Bytes) :
    (∀ front tag rest, Tagged key front tag rest →
      extractHashtag key = tag ∧ keySlot key = keySlot tag ∧
        (keySlot tag).toNat = (crc16 tag).toNat % 16384) ∧
    ((¬ ∃ front tag rest, Tagged key front tag rest) →
      extractHashtag key = key) ∧
    extractHashtag (extractHashtag key) = extractHashtag key ∧
    keySlot (extractHashtag key) = keySlot key ∧
    (keySlot key).toNat < 16384 ∧
    ∀ tag, HasTag key tag → keySlot key = keySlot tag ∧
      ∀ other, HasTag other tag → keySlot other = keySlot key := by
  refine ⟨?_, ?_, extractHashtag_idem key, keySlot_extractHashtag key,
    keySlot_lt key, ?_⟩
  · intro front tag rest tagged
    have hasTag : HasTag key tag := ⟨front, rest, tagged⟩
    exact ⟨hasTag.extractHashtag_eq, hasTag.keySlot_eq, hasTag.toNat_keySlot⟩
  · intro none
    apply extractHashtag_of_untagged
    rintro tag ⟨front, rest, tagged⟩
    exact none ⟨front, tag, rest, tagged⟩
  · intro tag hasTag
    refine ⟨hasTag.keySlot_eq, fun other otherHasTag => ?_⟩
    rw [otherHasTag.keySlot_eq, hasTag.keySlot_eq]

end RustiCache
