import ItemSeal.Bytes

/-!
Reading UTF-8: a byte string that is not the encoding of a text is reported with the length
of its longest valid beginning and, unless the bytes merely stop too early, with the number
of bytes that rule it out.
-/

namespace ItemSeal.Utf8

/-- The first place at which bytes fail to be UTF-8. -/
structure Fault where
  /-- The number of bytes before it, all valid. -/
  validUpTo : Nat
  /-- How many bytes form the invalid sequence; none if the bytes end inside a character. -/
  length : Option Nat
  deriving DecidableEq, Repr

/-- The report of a fault. -/
def Fault.message (fault : Fault) : String :=
  match fault.length with
  | some length => s!"invalid utf-8 sequence of {length} bytes from index {fault.validUpTo}"
  | none => s!"incomplete utf-8 byte sequence from index {fault.validUpTo}"

/-- The byte lies between two bounds. -/
def within (low high : Nat) (byte : UInt8) : Bool :=
  decide (low ≤ byte.toNat) && decide (byte.toNat ≤ high)

/-- The bounds of each byte that must follow a leading byte; none if it cannot lead. -/
def continuations (lead : UInt8) : Option (List (Nat × Nat)) :=
  let tail := (0x80, 0xBF)
  if within 0x00 0x7F lead then some []
  else if within 0xC2 0xDF lead then some [tail]
  else if within 0xE0 0xE0 lead then some [(0xA0, 0xBF), tail]
  else if within 0xED 0xED lead then some [(0x80, 0x9F), tail]
  else if within 0xE1 0xEF lead then some [tail, tail]
  else if within 0xF0 0xF0 lead then some [(0x90, 0xBF), tail, tail]
  else if within 0xF1 0xF3 lead then some [tail, tail, tail]
  else if within 0xF4 0xF4 lead then some [(0x80, 0x8F), tail, tail]
  else none

/-- How a character's bytes after the leading one turn out. -/
inductive Match where
  /-- All of them are there, and these bytes follow. -/
  | complete (rest : Bytes)
  /-- The bytes end before the character does. -/
  | incomplete
  /-- After this many bytes of the character comes one that cannot continue it. -/
  | invalid (length : Nat)

/-- Matches the bytes after a leading byte against their bounds, `length`
bytes being read already. -/
def matchBounds (length : Nat) : List (Nat × Nat) → Bytes → Match
  | [], rest => .complete rest
  | _ :: _, [] => .incomplete
  | (low, high) :: bounds, byte :: rest =>
      if within low high byte then matchBounds (length + 1) bounds rest else .invalid length

theorem matchBounds_length {length : Nat} {bounds : List (Nat × Nat)} {bytes rest : Bytes}
    (complete : matchBounds length bounds bytes = .complete rest) :
    rest.length ≤ bytes.length := by
  induction bounds generalizing length bytes with
  | nil =>
      cases complete
      exact Nat.le_refl _
  | cons bound bounds ih =>
      cases bytes with
      | nil => cases complete
      | cons byte tail =>
          simp only [matchBounds] at complete
          split at complete
          · exact Nat.le_succ_of_le (ih complete)
          · cases complete

/-- The first fault of bytes that follow `offset` valid ones; at the end of valid
bytes it names the end. -/
def faultFrom (offset : Nat) : Bytes → Fault
  | [] => ⟨offset, none⟩
  | lead :: rest =>
      match continuations lead with
      | none => ⟨offset, some 1⟩
      | some bounds =>
          match h : matchBounds 1 bounds rest with
          | .incomplete => ⟨offset, none⟩
          | .invalid length => ⟨offset, some length⟩
          | .complete after => faultFrom (offset + bounds.length + 1) after
termination_by bytes => bytes.length
decreasing_by
  have := matchBounds_length h
  simp only [List.length_cons]
  omega

/-- The text that bytes encode, or the first place at which they fail to. -/
def decode (bytes : Bytes) : Except Fault String :=
  match String.fromUTF8? ⟨bytes.toArray⟩ with
  | some text => .ok text
  | none => .error (faultFrom 0 bytes)

/-- Reading takes back what writing a text gives. -/
@[simp] theorem decode_ofString (text : String) : decode (Bytes.ofString text) = .ok text := by
  have bytes : (⟨(Bytes.ofString text).toArray⟩ : ByteArray) = text.toByteArray := by
    simp [Bytes.ofString]
  simp [decode, bytes, String.fromUTF8?, text.isValidUTF8, String.fromUTF8]

/-- Only the bytes of a text are read as that text. -/
theorem ofString_of_decode {bytes : Bytes} {text : String} (read : decode bytes = .ok text) :
    Bytes.ofString text = bytes := by
  unfold decode String.fromUTF8? at read
  by_cases valid : (⟨bytes.toArray⟩ : ByteArray).IsValidUTF8
  · simp only [valid, dite_true] at read
    cases read
    simp [Bytes.ofString, String.fromUTF8]
  · simp [valid] at read

end ItemSeal.Utf8
