import ItemSeal.Bytes

/-!
The hash under a key-dependent polynomial that authenticates data in Galois counter mode. Blocks
are polynomials over the two-element field modulo `x^128 + x^7 + x^2 + x + 1`; the first bit of a
block is the coefficient of one, so a product with `x` moves bits to the right.
-/

namespace ItemSeal.Ghash

/-- A block of sixteen bytes. -/
abbrev Block := BitVec 128

/-- The block whose bytes these are; missing bytes at the end are zero. -/
def Block.ofBytes (bytes : Bytes) : Block :=
  BitVec.ofNat 128 (bytes ++ List.replicate (16 - bytes.length) 0).toNat

/-- The bytes of a block. -/
def Block.toBytes (block : Block) : Bytes :=
  Bytes.ofNat 16 block.toNat

/-- The low coefficients of the modulus, from that of one on. -/
def reduction : Block :=
  0xE1000000000000000000000000000000#128

/-- The product with `x`. -/
def shift (a : Block) : Block :=
  if a.getLsbD 0 then (a >>> 1) ^^^ reduction else a >>> 1

/-- The product of two blocks by the first `bits` bits of the first, from
its bit `bits - 1` down. -/
def mulBits : (bits : Nat) → Block → Block → Block
  | 0, _, _ => 0
  | bits + 1, a, b => (if a.getLsbD bits then b else 0) ^^^ mulBits bits a (shift b)

/-- The product of two blocks. -/
def mul (a b : Block) : Block :=
  mulBits 128 a b

/-- The hash of further blocks after `sum`. -/
def absorb (key sum : Block) (blocks : List Block) : Block :=
  blocks.foldl (fun sum block => mul (sum ^^^ block) key) sum

/-- The bytes cut into blocks, the last one filled with zeros. -/
def blocks (bytes : Bytes) : List Block :=
  match bytes with
  | [] => []
  | first :: rest =>
      Block.ofBytes ((first :: rest).take 16) :: blocks ((first :: rest).drop 16)
termination_by bytes.length
decreasing_by
  simp only [List.length_drop, List.length_cons]
  omega

/-- The lengths of both inputs in bits, in eight bytes each. -/
def lengths (associated text : Bytes) : Block :=
  Block.ofBytes (Bytes.ofNat 8 (8 * associated.length) ++ Bytes.ofNat 8 (8 * text.length))

/-- The hash of associated data and a text. -/
def hash (key : Block) (associated text : Bytes) : Block :=
  absorb key 0 (blocks associated ++ blocks text ++ [lengths associated text])

end ItemSeal.Ghash
