import ItemSeal.Json.Parser
import ItemSeal.Json.Printer

/-!
A JSON object of texts is read back from what is written of it: `Json.parse?_print_strings`. Each
escaped character is taken off the front of whatever follows it, so literals come back, then the
row of tokens, then the object.
-/

namespace ItemSeal.Json

/-! ## Literals -/

namespace Literal

theorem digitValue?_digit {n : Nat} (small : n < 16) :
    Hex.digitValue? (Hex.digit n) = some n := by
  revert n
  decide

/-- A control character is read back from its number. -/
theorem unicodeEscape?_control {c : Char} (control : c.toNat < 0x20) (rest : List Char) :
    unicodeEscape? '0' '0' (Hex.digit (c.toNat / 16)) (Hex.digit (c.toNat % 16)) rest =
      some (c, rest) := by
  have zero : Hex.digitValue? '0' = some 0 := by decide
  have high : Hex.digitValue? (Hex.digit (c.toNat / 16)) = some (c.toNat / 16) :=
    digitValue?_digit (by omega)
  have low : Hex.digitValue? (Hex.digit (c.toNat % 16)) = some (c.toNat % 16) :=
    digitValue?_digit (by omega)
  have number : unit? '0' '0' (Hex.digit (c.toNat / 16)) (Hex.digit (c.toNat % 16)) =
      some c.toNat := by
    simp only [unit?, zero, high, low, Option.bind_eq_bind, Option.bind_some, Option.pure_def,
      Option.some.injEq]
    omega
  have notHigh : isHighHalf c.toNat = false := by
    simp only [isHighHalf, Bool.and_eq_false_iff, decide_eq_false_iff_not]
    omega
  have notLow : isLowHalf c.toNat = false := by
    simp only [isLowHalf, Bool.and_eq_false_iff, decide_eq_false_iff_not]
    omega
  unfold unicodeEscape?
  split
  · next found =>
      cases number.symm.trans found
      simp [notHigh, notLow]
  · next found _ =>
      cases number.symm.trans found
      simp [notHigh, notLow]
  · next missing => cases number.symm.trans missing

/-- An escaped character is taken off the front as the character. -/
theorem nextChar?_escaped (c : Char) (rest : List Char) :
    nextChar? (escaped c ++ rest) = some (c, rest) := by
  unfold escaped
  split
  · next here => subst here; rfl
  split
  · next here => subst here; rfl
  split
  · next here => subst here; rfl
  split
  · next here => subst here; rfl
  split
  · next here => subst here; rfl
  split
  · next here => subst here; rfl
  split
  · next here => subst here; rfl
  split
  · next control => exact unicodeEscape?_control control rest
  · next notQuote notBackslash _ _ _ _ _ notControl =>
      simp only [List.singleton_append]
      unfold nextChar?
      split
      · next same => cases same; exact absurd rfl notBackslash
      · next same => cases same; exact absurd rfl notBackslash
      · next same =>
          cases same
          rw [if_neg (by simp [notQuote, notBackslash, notControl])]
      · next empty => cases empty

/-- No escaped character ends a literal. -/
theorem head?_escaped (c : Char) (rest : List Char) : (escaped c ++ rest).head? ≠ some '"' := by
  intro ends
  have taken := nextChar?_escaped c rest
  cases shape : escaped c ++ rest with
  | nil =>
      rw [shape] at ends
      cases ends
  | cons first tail =>
      rw [shape] at ends taken
      cases ends
      have refused : nextChar? ('"' :: tail) = none := rfl
      cases refused.symm.trans taken

/-- A literal is read up to its closing quote. -/
theorem decode?_escaped (text rest : List Char) :
    decode? (text.flatMap escaped ++ '"' :: rest) = some (text, rest) := by
  induction text with
  | nil =>
      rw [decode?]
      rfl
  | cons c text ih =>
      rw [List.flatMap_cons, List.append_assoc, decode?, if_neg (head?_escaped c _)]
      split
      · next read found =>
          cases (nextChar?_escaped c _).symm.trans found
          rw [ih]
          rfl
      · next missing => cases (nextChar?_escaped c _).symm.trans missing

end Literal

/-! ## Tokens -/

/-- A literal is one token. -/
theorem tokens?_literal (text : String) (rest : List Char) :
    tokens? (Literal.encode text.toList ++ rest) =
      (tokens? rest).map (Token.string text :: ·) := by
  have read : Literal.decode? (text.toList.flatMap Literal.escaped ++ '"' :: rest) =
      some (text.toList, rest) := Literal.decode?_escaped _ _
  simp only [Literal.encode, List.cons_append, List.append_assoc, List.nil_append]
  rw [tokens?, if_neg (by decide), if_pos rfl]
  split
  · next found same =>
      cases read.symm.trans same
      rw [String.ofList_toList]
  · next missing => cases read.symm.trans missing

theorem tokens?_punctuation {mark : Char} {token : Token} (found : punctuation? mark = some token)
    (rest : List Char) : tokens? (mark :: rest) = (tokens? rest).map (token :: ·) := by
  have which : mark = '[' ∨ mark = ']' ∨ mark = '\x7b' ∨ mark = '\x7d' ∨
      mark = ',' ∨ mark = ':' := by
    unfold punctuation? at found
    grind
  have plain : isSpace mark = false ∧ mark ≠ '"' ∧ isNumberChar mark = false ∧
      mark.isAlpha = false := by
    rcases which with rfl | rfl | rfl | rfl | rfl | rfl <;> decide
  obtain ⟨notSpace, notQuote, notNumber, notAlpha⟩ := plain
  rw [tokens?]
  simp [notSpace, notQuote, notNumber, notAlpha, found]

/-- The tokens of members that are all texts. -/
def memberTokens : List (String × String) → List Token
  | [] => []
  | [(name, text)] => [.string name, .colon, .string text]
  | (name, text) :: rest => .string name :: .colon :: .string text :: .comma :: memberTokens rest

/-- Texts as members. -/
def stringMembers (entries : List (String × String)) : List (String × Json) :=
  entries.map fun (name, text) => (name, .string text)

theorem tokens?_memberChars (entries : List (String × String)) (rest : List Char) :
    tokens? (memberChars (stringMembers entries) ++ rest) =
      (tokens? rest).map (memberTokens entries ++ ·) := by
  have colon := fun rest =>
    tokens?_punctuation (show punctuation? ':' = some .colon from rfl) rest
  have comma := fun rest =>
    tokens?_punctuation (show punctuation? ',' = some .comma from rfl) rest
  induction entries with
  | nil => simp [stringMembers, memberChars, memberTokens]
  | cons entry others ih =>
      cases others with
      | nil =>
          simp only [stringMembers, List.map_cons, List.map_nil, memberChars, chars,
            List.append_assoc, List.cons_append, tokens?_literal, colon, Option.map_map,
            memberTokens]
          rfl
      | cons next more =>
          simp only [stringMembers, List.map_cons] at ih
          simp only [stringMembers, List.map_cons, memberChars, chars, List.append_assoc,
            List.cons_append, tokens?_literal, colon, comma, ih, Option.map_map, memberTokens]
          rfl

/-! ## Objects -/

/-- Members are read one after the other up to the closing brace. -/
theorem run_memberTokens (entry : String × String) (others : List (String × String))
    (before : List (String × Json)) (frames : List Frame) (rest : List Token) :
    (Place.needName before frames).run (memberTokens (entry :: others) ++ .closeObject :: rest) =
      (Place.after (.object (before ++ stringMembers (entry :: others))) frames).run rest := by
  induction others generalizing entry before with
  | nil => rfl
  | cons next more ih =>
      have step : (Place.needName before frames).run
            (memberTokens (entry :: next :: more) ++ .closeObject :: rest) =
          (Place.needName (before ++ [(entry.1, .string entry.2)]) frames).run
            (memberTokens (next :: more) ++ .closeObject :: rest) := rfl
      rw [step, ih]
      simp [stringMembers]

/-- An object of texts is read back from what is written of it. -/
theorem parse?_print_strings (entries : List (String × String)) :
    parse? (Json.object (stringMembers entries)).print =
      some (.object (stringMembers entries)) := by
  have openBrace := fun rest =>
    tokens?_punctuation (show punctuation? '\x7b' = some .openObject from rfl) rest
  have closeBrace := fun rest =>
    tokens?_punctuation (show punctuation? '\x7d' = some .closeObject from rfl) rest
  have none : tokens? [] = some [] := by rw [tokens?]
  have read : tokens? (Json.object (stringMembers entries)).chars =
      some (.openObject :: (memberTokens entries ++ [.closeObject])) := by
    rw [chars, List.cons_append, openBrace, tokens?_memberChars, closeBrace, none]
    rfl
  rw [parse?, print, String.toList_ofList, read, Option.bind_some, ofTokens?]
  cases entries with
  | nil => rfl
  | cons entry others =>
      have first : (Place.needValue []).run
            (.openObject :: (memberTokens (entry :: others) ++ [.closeObject])) =
          (Place.needName [] []).run (memberTokens (entry :: others) ++ [.closeObject]) := by
        cases others <;> rfl
      rw [first, run_memberTokens]
      rfl

end ItemSeal.Json
