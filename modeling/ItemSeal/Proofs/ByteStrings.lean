import ItemSeal.Bytes
import Mathlib.Algebra.Group.Nat.Defs
import Mathlib.Data.List.Induction

/-!
Byte strings: a number below `256 ^ width` is read back from its bytes, so the bytes tell such
numbers apart, and a number that leaves the highest byte free has a zero in front. Bytes are read
back from their number in turn, and texts are told apart by their bytes.
-/

namespace ItemSeal.Bytes

/-- One more low byte shifts the bytes before it up by eight bits. -/
theorem toNat_append_singleton (bytes : Bytes) (last : UInt8) :
    Bytes.toNat (bytes ++ [last]) = Bytes.toNat bytes * 256 + last.toNat := by
  simp [Bytes.toNat, List.foldl_append]

/-- A number that fits is read back from its bytes. -/
theorem toNat_ofNat {width n : Nat} (fits : n < 256 ^ width) :
    Bytes.toNat (Bytes.ofNat width n) = n := by
  induction width generalizing n with
  | zero =>
      have zero : n = 0 := by simpa using fits
      subst zero
      rfl
  | succ width ih =>
      have high : n / 256 < 256 ^ width := by
        rw [Nat.pow_succ] at fits
        exact Nat.div_lt_of_lt_mul (by rwa [Nat.mul_comm])
      rw [Bytes.ofNat, toNat_append_singleton, ih high, UInt8.toNat_ofNat']
      omega

/-- Bytes are read back from the number that they are the digits of. -/
theorem ofNat_toNat (bytes : Bytes) : Bytes.ofNat bytes.length (Bytes.toNat bytes) = bytes := by
  induction bytes using List.reverseRecOn with
  | nil => rfl
  | append_singleton front last ih =>
      have bound := last.toNat_lt
      have high : (Bytes.toNat front * 256 + last.toNat) / 256 = Bytes.toNat front := by omega
      have low : UInt8.ofNat (Bytes.toNat front * 256 + last.toNat) = last := by
        rw [← UInt8.toNat_inj, UInt8.toNat_ofNat']
        omega
      rw [toNat_append_singleton, List.length_append, List.length_singleton, Bytes.ofNat, high,
        low, ih]

/-- The number of some bytes takes no more of them. -/
theorem toNat_lt (bytes : Bytes) : Bytes.toNat bytes < 256 ^ bytes.length := by
  induction bytes using List.reverseRecOn with
  | nil => decide
  | append_singleton front last ih =>
      have bound := last.toNat_lt
      rw [toNat_append_singleton, List.length_append, List.length_singleton, Nat.pow_succ]
      omega

/-- Numbers that fit are told apart by their bytes. -/
theorem ofNat_injective {width m n : Nat} (fitsLeft : m < 256 ^ width)
    (fitsRight : n < 256 ^ width) (same : Bytes.ofNat width m = Bytes.ofNat width n) : m = n := by
  rw [← toNat_ofNat fitsLeft, same, toNat_ofNat fitsRight]

/-- A number that fits into one byte less has a zero in front. -/
theorem ofNat_succ_of_lt {width n : Nat} (fits : n < 256 ^ width) :
    Bytes.ofNat (width + 1) n = 0 :: Bytes.ofNat width n := by
  induction width generalizing n with
  | zero =>
      have zero : n = 0 := by simpa using fits
      subst zero
      rfl
  | succ width ih =>
      have high : n / 256 < 256 ^ width := by
        rw [Nat.pow_succ] at fits
        exact Nat.div_lt_of_lt_mul (by rwa [Nat.mul_comm])
      rw [Bytes.ofNat, ih high, Bytes.ofNat, List.cons_append]

/-- Texts are told apart by their bytes. -/
theorem ofString_injective {left right : String}
    (same : Bytes.ofString left = Bytes.ofString right) : left = right := by
  apply String.toByteArray_inj.1
  exact ByteArray.ext (Array.toList_inj.1 same)

theorem ofString_append (left right : String) :
    Bytes.ofString (left ++ right) = Bytes.ofString left ++ Bytes.ofString right := by
  simp [Bytes.ofString]

/-- A part is not longer than all parts in a row. -/
theorem length_le_flatMap {α : Type} {write : α → Bytes} {parts : List α} {part : α}
    (member : part ∈ parts) : (write part).length ≤ (parts.flatMap write).length := by
  obtain ⟨before, after, rfl⟩ := List.append_of_mem member
  simp only [List.flatMap_append, List.flatMap_cons, List.length_append]
  omega

/-- Parts that are all written with some bytes are not more than those bytes. -/
theorem length_le_length_flatMap {α : Type} {write : α → Bytes} {parts : List α}
    (nonempty : ∀ part ∈ parts, 0 < (write part).length) :
    parts.length ≤ (parts.flatMap write).length := by
  induction parts with
  | nil => exact Nat.zero_le 0
  | cons part rest ih =>
      obtain ⟨first, others⟩ := List.forall_mem_cons.1 nonempty
      have tail := ih others
      rw [List.flatMap_cons, List.length_append, List.length_cons]
      omega

end ItemSeal.Bytes
