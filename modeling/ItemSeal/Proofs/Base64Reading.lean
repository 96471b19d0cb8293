import ItemSeal.Bytes.Base64
import ItemSeal.Proofs.ByteStrings

/-!
Base64 texts are read back. `decodeGroups_encodeBytes` goes through the groups of four symbols
that `encodeBytes` writes, the last of which may be padded; `decode_encode` is about the texts.
-/

namespace ItemSeal.Base64

/-! ## Single symbols -/

theorem symbolValue?_symbol {n : Nat} (small : n < 64) : symbolValue? (symbol n) = some n := by
  have each : ∀ n : Fin 64, symbolValue? (symbol n) = some n.val := by decide
  exact each ⟨n, small⟩

theorem symbol_ne_pad {n : Nat} (small : n < 64) : symbol n ≠ pad := by
  have each : ∀ n : Fin 64, symbol n ≠ pad := by decide
  exact each ⟨n, small⟩

theorem symbolAt_symbol {n : Nat} (small : n < 64) (offset : Nat) :
    symbolAt offset (symbol n) = .ok n := by
  rw [symbolAt, symbolValue?_symbol small]

/-! ## The last group -/

theorem scanTail_symbols {numbers : List Nat} (small : ∀ n ∈ numbers, n < 64) (offset : Nat)
    (rest : Bytes) (place : Nat) (tail : Tail) (unpadded : tail.padding = 0) :
    ∃ last, scanTail offset place tail (numbers.map symbol ++ rest) =
      scanTail offset (place + numbers.length)
        { tail with numbers := tail.numbers ++ numbers, last } rest := by
  induction numbers generalizing place tail with
  | nil => exact ⟨tail.last, by simp⟩
  | cons n numbers ih =>
      have smallHere : n < 64 := small n List.mem_cons_self
      have unfilled : ¬ 0 < tail.padding := by omega
      obtain ⟨last, scans⟩ :=
        ih (fun m member => small m (List.mem_cons_of_mem n member)) (place + 1)
        { tail with numbers := tail.numbers ++ [n], last := symbol n } unpadded
      refine ⟨last, ?_⟩
      rw [List.map_cons, List.cons_append, scanTail, if_neg (symbol_ne_pad smallHere),
        if_neg unfilled, symbolAt_symbol smallHere]
      dsimp only
      rw [scans, List.length_cons, List.append_assoc, List.singleton_append]
      congr 1
      omega

theorem scanTail_pads (count offset place : Nat) (late : 2 ≤ place) (tail : Tail) :
    ∃ firstPadding, scanTail offset place tail (List.replicate count pad) =
      .ok { tail with padding := tail.padding + count, firstPadding } := by
  induction count generalizing place tail with
  | zero => exact ⟨tail.firstPadding, rfl⟩
  | succ count ih =>
      have notEarly : ¬ place < 2 := by omega
      obtain ⟨firstPadding, scans⟩ := ih (place + 1) (Nat.le_succ_of_le late)
        { tail with padding := tail.padding + 1,
                    firstPadding := if tail.padding = 0 then place else tail.firstPadding }
      refine ⟨firstPadding, ?_⟩
      rw [List.replicate_succ, scanTail, if_pos rfl, if_neg notEarly]
      dsimp only
      rw [scans, Nat.add_assoc, Nat.add_comm 1 count]

/-- The last group is two to four numbers as symbols, padded to four bytes. -/
theorem decodeTail_symbols (numbers : List Nat) (small : ∀ n ∈ numbers, n < 64)
    (two : 2 ≤ numbers.length) (four : numbers.length ≤ 4) (offset : Nat) :
    ∃ last, decodeTail offset (numbers.map symbol ++ List.replicate (4 - numbers.length) pad) =
      tailBytes offset last numbers := by
  obtain ⟨last, symbols⟩ :=
    scanTail_symbols small offset (List.replicate (4 - numbers.length) pad) 0 ⟨[], 0, 0, 0⟩ rfl
  obtain ⟨firstPadding, pads⟩ := scanTail_pads (4 - numbers.length) offset (0 + numbers.length)
    (by omega) { numbers := [] ++ numbers, last, padding := 0, firstPadding := 0 }
  have nonempty : numbers.map symbol ++ List.replicate (4 - numbers.length) pad ≠ [] := by
    intro empty
    have := congrArg List.length empty
    simp only [List.length_append, List.length_map, List.length_nil] at this
    omega
  have enough : ¬ numbers.length < 2 := by omega
  have whole : ¬ (4 - numbers.length + numbers.length) % 4 ≠ 0 := by omega
  refine ⟨last, ?_⟩
  rw [decodeTail, symbols, pads]
  simp only [List.nil_append, Nat.zero_add]
  change (if _ then _ else _) = _
  rw [if_neg nonempty, if_neg enough, if_neg whole]

/-! ## All groups -/

theorem encodeBytes_ne_nil {bytes : Bytes} (nonempty : bytes ≠ []) : encodeBytes bytes ≠ [] := by
  unfold encodeBytes
  split <;> simp at nonempty ⊢

/-- Reading takes back what `encodeBytes` writes, at any offset. -/
theorem decodeGroups_encodeBytes (bytes : Bytes) (offset : Nat) :
    decodeGroups offset (encodeBytes bytes) = .ok bytes := by
  induction bytes using encodeBytes.induct generalizing offset with
  | case1 a b c rest ih =>
      have boundA := a.toNat_lt
      have boundB := b.toNat_lt
      have boundC := c.toNat_lt
      have back : Bytes.ofNat 3 ((a.toNat * 256 + b.toNat) * 256 + c.toNat) = [a, b, c] := by
        simpa [Bytes.toNat] using Bytes.ofNat_toNat [a, b, c]
      rw [encodeBytes]
      generalize number : (a.toNat * 256 + b.toNat) * 256 + c.toNat = n at back
      have digits : ((n / 262144 * 64 + n / 4096 % 64) * 64 + n / 64 % 64) * 64 + n % 64 = n := by
        omega
      have first : n / 262144 < 64 := by omega
      -- The last group is read apart from the others, also if nothing is padded.
      by_cases last : rest = []
      · subst last
        obtain ⟨_, reads⟩ := decodeTail_symbols
          [n / 262144, n / 4096 % 64, n / 64 % 64, n % 64] (by simp; omega) (by simp)
            (by simp) offset
        refine reads.trans ?_
        rw [tailBytes, digits, back]
      · obtain ⟨next, more, following⟩ := List.exists_cons_of_ne_nil (encodeBytes_ne_nil last)
        have tail := ih (offset + 4)
        rw [following] at tail ⊢
        rw [decodeGroups, symbolAt_symbol first, symbolAt_symbol (by omega),
          symbolAt_symbol (by omega), symbolAt_symbol (by omega), tail]
        change Except.ok (Bytes.ofNat 3 _ ++ rest) = _
        rw [digits, back]
        rfl
  | case2 a b =>
      have boundA := a.toNat_lt
      have boundB := b.toNat_lt
      have back : Bytes.ofNat 2 (a.toNat * 256 + b.toNat) = [a, b] := by
        simpa [Bytes.toNat] using Bytes.ofNat_toNat [a, b]
      rw [encodeBytes]
      generalize number : a.toNat * 256 + b.toNat = n at back
      obtain ⟨_, reads⟩ := decodeTail_symbols
        [n * 4 / 4096, n * 4 / 64 % 64, n * 4 % 64] (by simp; omega) (by simp) (by simp) offset
      have digits : (n * 4 / 4096 * 64 + n * 4 / 64 % 64) * 64 + n * 4 % 64 = n * 4 := by omega
      refine reads.trans ?_
      rw [tailBytes, digits, if_pos (by omega), Nat.mul_div_cancel n (by decide), back]
  | case3 a =>
      have bound := a.toNat_lt
      have back : Bytes.ofNat 1 a.toNat = [a] := by
        simpa [Bytes.toNat] using Bytes.ofNat_toNat [a]
      obtain ⟨_, reads⟩ := decodeTail_symbols
        [a.toNat * 16 / 64, a.toNat * 16 % 64] (by simp; omega) (by simp) (by simp) offset
      have digits : a.toNat * 16 / 64 * 64 + a.toNat * 16 % 64 = a.toNat * 16 := by omega
      refine reads.trans ?_
      rw [tailBytes, digits, if_pos (by omega), Nat.mul_div_cancel _ (by decide), back]
  | case4 => rfl

/-! ## Texts -/

theorem length_encodeBytes_mod (bytes : Bytes) : (encodeBytes bytes).length % 4 = 0 := by
  induction bytes using encodeBytes.induct with
  | case1 a b c rest ih =>
      simp only [encodeBytes, List.length_cons]
      omega
  | case2 a b => simp [encodeBytes]
  | case3 a => simp [encodeBytes]
  | case4 => rfl

theorem symbol_ascii (n : Nat) : (symbol n).toNat < 128 := by
  unfold symbol
  split
  · rw [UInt8.toNat_ofNat']
    omega
  · split
    · rw [UInt8.toNat_ofNat']
      omega
    · split
      · rw [UInt8.toNat_ofNat']
        omega
      · split <;> decide

theorem encodeBytes_ascii (bytes : Bytes) : ∀ byte ∈ encodeBytes bytes, byte.toNat < 128 := by
  have padding : pad.toNat < 128 := by decide
  induction bytes using encodeBytes.induct with
  | case1 a b c rest ih => simpa [encodeBytes, symbol_ascii] using ih
  | case2 a b => simpa [encodeBytes, symbol_ascii] using padding
  | case3 a => simpa [encodeBytes, symbol_ascii] using padding
  | case4 => simp [encodeBytes]

/-- The text of ASCII characters has one byte for each. -/
theorem ofString_ofList_ascii {bytes : Bytes} (ascii : ∀ byte ∈ bytes, byte.toNat < 128) :
    Bytes.ofString (String.ofList (bytes.map fun byte => Char.ofNat byte.toNat)) = bytes := by
  have single :
    ∀ n : Fin 128, String.utf8EncodeChar (Char.ofNat n.val) = [UInt8.ofNat n.val] := by decide
  rw [Bytes.ofString, String.toByteArray_ofList, List.utf8Encode, List.flatMap_map,
    List.data_toByteArray, List.toList_toArray]
  induction bytes with
  | nil => rfl
  | cons byte rest ih =>
      have here := single ⟨byte.toNat, ascii byte List.mem_cons_self⟩
      have later := ih fun other member => ascii other (List.mem_cons_of_mem byte member)
      rw [UInt8.ofNat_toNat] at here
      rw [List.flatMap_cons, here, List.singleton_append, later]

/-- Reading a text takes back the bytes that it was written for. -/
theorem decode_encode (bytes : Bytes) : decode (encode bytes) = .ok bytes := by
  have written : Bytes.ofString (encode bytes) = encodeBytes bytes :=
    ofString_ofList_ascii (encodeBytes_ascii bytes)
  have whole : strayByte? (encodeBytes bytes) = none := by
    unfold strayByte?
    rw [length_encodeBytes_mod]
    split <;> simp
  rw [decode, written, whole]
  exact decodeGroups_encodeBytes bytes 0

end ItemSeal.Base64
