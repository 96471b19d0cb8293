import ItemSeal.Proofs.ByteStrings
import Mathlib.Tactic.ByContra
import Mathlib.Tactic.SplitIfs

/-!
Texts are ordered as their bytes are. UTF-8 writes the lesser of two characters with the
lesser bytes, and the first byte in which they differ comes before the end of either, so
nothing that follows the two changes their order (`Bytes.encodeChar_append_lt`).
`Bytes.ofString_lt_iff` is the law of whole texts.
-/

namespace ItemSeal.Bytes

theorem cons_lt_cons_iff {first second : UInt8} {left right : Bytes} :
    first :: left < second :: right ↔
      first.toNat < second.toNat ∨ first.toNat = second.toNat ∧ left < right := by
  rw [List.cons_lt_cons_iff, UInt8.lt_iff_toNat_lt, UInt8.toNat_inj]

/-- The bytes of a text are those of its characters. -/
theorem ofString_eq_flatMap (text : String) :
    Bytes.ofString text = text.toList.flatMap String.utf8EncodeChar := by
  have encoded : text.toByteArray = text.toList.utf8Encode := String.utf8Encode_toList.symm
  rw [Bytes.ofString, encoded, List.utf8Encode]
  simp

/-- The lesser of two characters has the lesser bytes, whatever follows them. -/
theorem encodeChar_append_lt {first second : Char} (less : first < second) (left right : Bytes) :
    String.utf8EncodeChar first ++ left < String.utf8EncodeChar second ++ right := by
  have codes : first.val.toNat < second.val.toNat := less
  have bound : second.val.toNat < 0x110000 := by
    rcases second.valid with low | ⟨-, high⟩
    · exact Nat.lt_trans low (by decide)
    · exact high
  -- A leading byte holds the high digits in base 64 and the bytes after it one digit each.
  have lead : ∀ n, (n % 8 + 240) % 256 = n % 8 + 240 := fun n => by omega
  have tail : ∀ n, (n % 64 + 128) % 256 = n % 64 + 128 := fun n => by omega
  have middle : ∀ n : Nat, n / 4096 = n / 64 / 64 := fun n => by omega
  have high : ∀ n : Nat, n / 262144 = n / 64 / 64 / 64 := fun n => by omega
  unfold String.utf8EncodeChar
  dsimp only
  split_ifs <;>
    simp only [List.cons_append, List.nil_append, cons_lt_cons_iff, UInt8.toNat_ofNat',
      Nat.reducePow, lead, tail, middle, high] <;>
    omega

theorem flatMap_encodeChar_lt {left right : List Char} (less : left < right) :
    left.flatMap String.utf8EncodeChar < right.flatMap String.utf8EncodeChar := by
  induction left generalizing right with
  | nil =>
      cases right with
      | nil => exact absurd less (List.not_lt_nil [])
      | cons first rest =>
          rw [List.flatMap_cons]
          cases written : String.utf8EncodeChar first with
          | nil => exact absurd written String.utf8EncodeChar_ne_nil
          | cons byte bytes => exact List.nil_lt_cons _ _
  | cons first rest ih =>
      cases right with
      | nil => exact absurd less (List.not_lt_nil _)
      | cons second others =>
          rw [List.flatMap_cons, List.flatMap_cons]
          rcases List.cons_lt_cons_iff.1 less with before | ⟨rfl, later⟩
          · exact encodeChar_append_lt before _ _
          · exact List.append_left_lt (ih later)

/-- Texts are ordered as their bytes are. -/
theorem ofString_lt_iff {left right : String} :
    Bytes.ofString left < Bytes.ofString right ↔ left < right := by
  have ascends : ∀ {first second : String}, first < second →
      Bytes.ofString first < Bytes.ofString second := by
    intro first second less
    rw [ofString_eq_flatMap, ofString_eq_flatMap]
    exact flatMap_encodeChar_lt less
  refine ⟨fun bytes => ?_, ascends⟩
  by_contra notLess
  have le : right ≤ left := String.not_lt.1 notLess
  by_cases same : right = left
  · subst same
    exact List.lt_irrefl _ bytes
  · exact List.lt_asymm (ascends (Std.lt_of_le_of_ne le same)) bytes

end ItemSeal.Bytes
