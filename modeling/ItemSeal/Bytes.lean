/-!
Byte strings: big-endian numbers of a fixed width, and the UTF-8 bytes of a text.
-/

namespace ItemSeal

/-- A finite string of bytes. -/
abbrev Bytes := List UInt8

/-- The `width` low bytes of `n`, most significant first. -/
def Bytes.ofNat : (width n : Nat) → Bytes
  | 0, _ => []
  | width + 1, n => Bytes.ofNat width (n / 256) ++ [UInt8.ofNat n]

/-- The number whose digits in base 256 are these bytes, most significant first. -/
def Bytes.toNat (bytes : Bytes) : Nat :=
  bytes.foldl (fun n byte => n * 256 + byte.toNat) 0

/-- The UTF-8 bytes of a text. -/
def Bytes.ofString (text : String) : Bytes :=
  text.toByteArray.data.toList

/-- The byte-wise exclusive or, as long as the shorter of the two. -/
def Bytes.xor (left right : Bytes) : Bytes :=
  List.zipWith (· ^^^ ·) left right

/-- The bytes of `pattern` repeated from its start until `count` of them are written. An empty
pattern counts as one zero byte. -/
def Bytes.cycle (pattern : Bytes) (count : Nat) : Bytes :=
  (List.range count).map fun i => (pattern[i % pattern.length]?).getD 0

@[simp] theorem Bytes.length_ofNat (width n : Nat) : (Bytes.ofNat width n).length = width := by
  induction width generalizing n with
  | zero => rfl
  | succ width ih => simp [Bytes.ofNat, ih]

@[simp] theorem Bytes.length_cycle (pattern : Bytes) (count : Nat) :
    (pattern.cycle count).length = count := by
  simp [Bytes.cycle]

end ItemSeal
