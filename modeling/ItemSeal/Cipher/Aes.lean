import ItemSeal.Bytes

/-!
The block cipher AES with keys of 32 bytes. A state is four columns of four bytes; the bytes
themselves are polynomials over the two-element field, modulo `x^8 + x^4 + x^3 + x + 1`.
-/

namespace ItemSeal.Aes

/-! ## Bytes as polynomials -/

/-- The product with `x`. -/
def double (b : UInt8) : UInt8 :=
  if b &&& 0x80 = 0 then b <<< 1 else (b <<< 1) ^^^ 0x1B

/-- The product of two bytes, by the lowest `bits` bits of the second. -/
def mulBits : (bits : Nat) → UInt8 → UInt8 → UInt8
  | 0, _, _ => 0
  | bits + 1, a, b => (if b &&& 1 = 0 then 0 else a) ^^^ mulBits bits (double a) (b >>> 1)

/-- The product of two bytes. -/
def mul (a b : UInt8) : UInt8 :=
  mulBits 8 a b

/-- The byte to a power of two less two: one factor for each square. -/
def powers : (squarings : Nat) → UInt8 → UInt8
  | 0, _ => 1
  | squarings + 1, b => let square := mul b b; mul square (powers squarings square)

/-- The inverse of a byte, and zero for zero: the byte to the power 254. -/
def inverse (b : UInt8) : UInt8 :=
  powers 7 b

/-- The byte with its bits moved up by `n`, the high ones coming back at the low end. -/
def rotate (b : UInt8) (n : UInt8) : UInt8 :=
  (b <<< n) ||| (b >>> (8 - n))

/-- The substitute of a byte: its inverse, each bit of it added to four others, and a constant. -/
def substitute (b : UInt8) : UInt8 :=
  let i := inverse b
  i ^^^ rotate i 1 ^^^ rotate i 2 ^^^ rotate i 3 ^^^ rotate i 4 ^^^ 0x63

/-- The substitutes of all bytes. -/
def substitutes : Array UInt8 :=
  Array.ofFn fun n : Fin 256 => substitute (UInt8.ofNat n)

theorem size_substitutes : substitutes.size = 256 := by
  simp [substitutes]

/-- The substitute of a byte, looked up. -/
def sub (b : UInt8) : UInt8 :=
  have inside : b.toNat < substitutes.size := by rw [size_substitutes]; exact b.toNat_lt
  substitutes[b.toNat]

/-! ## Columns and states -/

/-- Four bytes, the topmost first. -/
structure Column where
  (b₀ b₁ b₂ b₃ : UInt8)
  deriving DecidableEq, Repr

namespace Column

/-- The bytes in order. -/
def toBytes (c : Column) : Bytes :=
  [c.b₀, c.b₁, c.b₂, c.b₃]

/-- Each byte changed. -/
def map (f : UInt8 → UInt8) (c : Column) : Column :=
  ⟨f c.b₀, f c.b₁, f c.b₂, f c.b₃⟩

/-- The sum, byte by byte. -/
def add (c d : Column) : Column :=
  ⟨c.b₀ ^^^ d.b₀, c.b₁ ^^^ d.b₁, c.b₂ ^^^ d.b₂, c.b₃ ^^^ d.b₃⟩

/-- The first byte put last. -/
def turn (c : Column) : Column :=
  ⟨c.b₁, c.b₂, c.b₃, c.b₀⟩

/-- Twice the first byte, three times the second, and the others. -/
def blend (a b c d : UInt8) : UInt8 :=
  double a ^^^ double b ^^^ b ^^^ c ^^^ d

/-- Each byte blended with those below it. -/
def mix (c : Column) : Column :=
  ⟨blend c.b₀ c.b₁ c.b₂ c.b₃, blend c.b₁ c.b₂ c.b₃ c.b₀, blend c.b₂ c.b₃ c.b₀ c.b₁,
    blend c.b₃ c.b₀ c.b₁ c.b₂⟩

end Column

/-- Four columns. -/
structure State where
  (c₀ c₁ c₂ c₃ : Column)
  deriving DecidableEq, Repr

namespace State

/-- The first sixteen bytes, column by column; missing bytes are zero. -/
def ofBytes (bytes : Bytes) : State :=
  let byte := fun i => (bytes[i]?).getD 0
  let column := fun i => ⟨byte i, byte (i + 1), byte (i + 2), byte (i + 3)⟩
  ⟨column 0, column 4, column 8, column 12⟩

/-- The sixteen bytes, column by column. -/
def toBytes (s : State) : Bytes :=
  s.c₀.toBytes ++ s.c₁.toBytes ++ s.c₂.toBytes ++ s.c₃.toBytes

/-- The sum, byte by byte. -/
def add (s t : State) : State :=
  ⟨s.c₀.add t.c₀, s.c₁.add t.c₁, s.c₂.add t.c₂, s.c₃.add t.c₃⟩

/-- Each column changed. -/
def map (f : Column → Column) (s : State) : State :=
  ⟨f s.c₀, f s.c₁, f s.c₂, f s.c₃⟩

/-- Each row turned by its number. -/
def shiftRows (s : State) : State :=
  ⟨⟨s.c₀.b₀, s.c₁.b₁, s.c₂.b₂, s.c₃.b₃⟩, ⟨s.c₁.b₀, s.c₂.b₁, s.c₃.b₂, s.c₀.b₃⟩,
    ⟨s.c₂.b₀, s.c₃.b₁, s.c₀.b₂, s.c₁.b₃⟩, ⟨s.c₃.b₀, s.c₀.b₁, s.c₁.b₂, s.c₂.b₃⟩⟩

@[simp] theorem length_toBytes (s : State) : s.toBytes.length = 16 := rfl

end State

/-! ## Keys of the rounds -/

/-- The next two round keys after two; `constant` differs from step to step. -/
def nextKeys (constant : UInt8) (low high : State) : State × State :=
  let c₀ := low.c₀.add ((high.c₃.turn.map sub).add ⟨constant, 0, 0, 0⟩)
  let c₁ := low.c₁.add c₀
  let c₂ := low.c₂.add c₁
  let c₃ := low.c₃.add c₂
  let d₀ := high.c₀.add (c₃.map sub)
  let d₁ := high.c₁.add d₀
  let d₂ := high.c₂.add d₁
  let d₃ := high.c₃.add d₂
  (⟨c₀, c₁, c₂, c₃⟩, ⟨d₀, d₁, d₂, d₃⟩)

/-- The round keys that follow two, two for each step. -/
def keysAfter : (steps : Nat) → (constant : UInt8) → State → State → List State
  | 0, _, _, _ => []
  | steps + 1, constant, low, high =>
      let (low, high) := nextKeys constant low high
      low :: high :: keysAfter steps (double constant) low high

/-- The fifteen round keys of a key of 32 bytes. -/
def roundKeys (key : Bytes) : List State :=
  let low := State.ofBytes (key.take 16)
  let high := State.ofBytes (key.drop 16)
  (low :: high :: keysAfter 7 1 low high).take 15

/-! ## Rounds -/

/-- All rounds but the first key's sum; the last round does not mix. -/
def rounds (s : State) : List State → State
  | [] => s
  | [last] => ((s.map (·.map sub)).shiftRows).add last
  | key :: rest => rounds ((((s.map (·.map sub)).shiftRows).map Column.mix).add key) rest

/-- The image of a block under the cipher with these round keys. -/
def encryptState (keys : List State) (s : State) : State :=
  match keys with
  | [] => s
  | first :: rest => rounds (s.add first) rest

/-- The image of a block of sixteen bytes. -/
def encryptBlock (keys : List State) (block : Bytes) : Bytes :=
  (encryptState keys (State.ofBytes block)).toBytes

@[simp] theorem length_encryptBlock (keys : List State) (block : Bytes) :
    (encryptBlock keys block).length = 16 := rfl

end ItemSeal.Aes
