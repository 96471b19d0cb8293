import ItemSeal.Error
import ItemSeal.Proofs.Codec.Canonical
import ItemSeal.Proofs.Codec.Decoding

/-!
Written forms that are cut or extended. Reading looks at no byte behind what it takes off, so
whatever it comes to, unless the bytes end too early, it comes to with more bytes behind as well:
`Encoded.Extends`, which composes along the readers. Of bytes that are read as a whole every part
at the front therefore ends too early, and with more bytes behind these are left over
(`AttributeValue.serialize_prefixFree`).
-/

namespace ItemSeal

namespace Encoded

/-- What the reader comes to on some bytes the longer reader comes to with more bytes behind,
which it leaves; unless they end too early for the first. -/
structure Extends {α : Type} (reader longer : Reader Id α) : Prop where
  ok : ∀ {bytes rest more value}, reader.outcome bytes = .ok (value, rest) →
    longer.outcome (bytes ++ more) = .ok (value, rest ++ more)
  error : ∀ {bytes more fault}, reader.outcome bytes = .error fault → fault ≠ .truncated →
    longer.outcome (bytes ++ more) = .error fault

/-! ## Readers in a row -/

section Composition

variable {α β : Type}

/-- Two readers in a row fail if the first does or the second does on what the first leaves. -/
theorem run_bind_eq_error_iff {first : Reader Id α} {next : α → Reader Id β} {bytes : Bytes}
    {fault : DecodeError} :
    (first >>= next).outcome bytes = .error fault ↔
      first.outcome bytes = .error fault ∨
        ∃ a between, first.outcome bytes = .ok (a, between) ∧
          (next a).outcome between = .error fault := by
  rw [outcome_bind]
  rcases first.outcome bytes with failure | ⟨a, between⟩
  · simp [bind, Except.bind]
  · simp [bind, Except.bind]

theorem Extends.pure (value : α) : Extends (Pure.pure value : Reader Id α) (Pure.pure value) where
  ok reads := by
    cases reads
    rfl
  error fails := by cases fails

/-- A reader that cannot go on where the bytes end is extended by any. -/
theorem Extends.ofTruncated (longer : Reader Id α) :
    Extends (throw .truncated : Reader Id α) longer where
  ok reads := by cases reads
  error fails other := by
    cases fails
    exact absurd rfl other

theorem Extends.throw (fault : DecodeError) :
    Extends (MonadExcept.throw fault : Reader Id α) (MonadExcept.throw fault) where
  ok reads := by cases reads
  error fails _ := by
    cases fails
    rfl

theorem Extends.bind {first longerFirst : Reader Id α} {next longerNext : α → Reader Id β}
    (extendsFirst : Extends first longerFirst)
    (extendsNext : ∀ a, Extends (next a) (longerNext a)) :
    Extends (first >>= next) (longerFirst >>= longerNext) where
  ok reads := by
    obtain ⟨a, between, readsFirst, readsNext⟩ := run_bind_eq_ok_iff.1 reads
    exact run_bind_eq_ok_iff.2 ⟨a, between ++ _, extendsFirst.ok readsFirst,
      (extendsNext a).ok readsNext⟩
  error fails other := by
    rw [run_bind_eq_error_iff]
    rcases run_bind_eq_error_iff.1 fails with fails | ⟨a, between, readsFirst, fails⟩
    · exact .inl (extendsFirst.error fails other)
    · exact .inr ⟨a, between ++ _, extendsFirst.ok readsFirst, (extendsNext a).error fails other⟩

/-- A last step that only forms the result takes nothing. -/
theorem Extends.andThen {reader longer : Reader Id α} (extended : Extends reader longer)
    (form : α → β) :
    Extends (reader >>= fun result => Pure.pure (form result))
      (longer >>= fun result => Pure.pure (form result)) :=
  extended.bind fun result => .pure (form result)

end Composition

/-! ## Lengths, fields and texts -/

theorem extends_readBytes (count : Nat) : Extends (readBytes count) (readBytes count) := by
  have runs : ∀ bytes, (readBytes count : Reader Id Bytes).outcome bytes =
      if count ≤ bytes.length then .ok (bytes.take count, bytes.drop count)
      else .error .truncated := fun _ => rfl
  constructor
  · intro bytes rest more value reads
    rw [runs] at reads
    split at reads
    · next enough =>
        cases reads
        have still : count ≤ (bytes ++ more).length := by
          rw [List.length_append]
          omega
        rw [runs, if_pos still, List.take_append_of_le_length enough,
          List.drop_append_of_le_length enough]
    · cases reads
  · intro bytes more fault fails other
    rw [runs] at fails
    split at fails
    · cases fails
    · cases fails
      exact absurd rfl other

theorem extends_readByte : Extends readByte readByte := by
  constructor
  · intro bytes rest more byte reads
    cases bytes with
    | nil => cases reads
    | cons first others =>
        cases reads
        rfl
  · intro bytes more fault fails other
    cases bytes with
    | nil =>
        cases fails
        exact absurd rfl other
    | cons first others => cases fails

theorem extends_readLength : Extends readLength readLength :=
  (extends_readBytes 4).andThen Bytes.toNat

theorem extends_readField : Extends readField readField :=
  extends_readLength.bind extends_readBytes

theorem extends_readText : Extends readText readText := by
  refine extends_readField.bind fun field => ?_
  cases Utf8.decode field with
  | ok text => exact .pure text
  | error fault => exact .throw _

section Counted

variable {α : Type} {readOne longer : Reader Id α}

theorem Extends.readMany (extended : Extends readOne longer) (count : Nat) :
    Extends (readMany readOne count) (readMany longer count) := by
  induction count with
  | zero => exact .pure []
  | succ count ih => exact extended.bind fun first => ih.andThen (first :: ·)

theorem Extends.readCounted (extended : Extends readOne longer) :
    Extends (readCounted readOne) (readCounted longer) :=
  extends_readLength.bind extended.readMany

end Counted

/-! ## Trees -/

section Trees

variable {readValue longer : Reader Id Encoded}

theorem Extends.readEntry (extended : Extends readValue longer) :
    Extends (readEntry readValue) (readEntry longer) :=
  extends_readText.bind fun name => extended.andThen (name, ·)

theorem Extends.readPayload (extended : Extends readValue longer) (tag : Tag) :
    Extends (readPayload ample readValue tag) (readPayload ample longer tag) := by
  cases tag with
  | string => exact extends_readText.andThen Encoded.string
  | number => exact extends_readText.andThen Encoded.number
  | binary => exact extends_readField.andThen Encoded.binary
  | stringSet => exact extends_readText.readCounted.andThen Encoded.stringSet
  | numberSet => exact extends_readText.readCounted.andThen Encoded.numberSet
  | binarySet => exact extends_readField.readCounted.andThen Encoded.binarySet
  | map => exact extended.readEntry.readCounted.andThen Encoded.map
  | list => exact extended.readCounted.andThen Encoded.list
  | null => exact .pure Encoded.null
  | bool => exact extends_readByte.andThen Encoded.bool

/-- A larger bound changes nothing but where the smaller one runs out, and there
the bytes end too early. -/
theorem extends_readWithin {bound larger : Nat} (le : bound ≤ larger) :
    Extends (readWithin ample bound) (readWithin ample larger) := by
  induction bound generalizing larger with
  | zero => exact .ofTruncated _
  | succ bound ih =>
      obtain ⟨larger, rfl⟩ := Nat.exists_eq_add_one_of_ne_zero (Nat.ne_zero_of_lt le)
      refine extends_readByte.bind fun first => ?_
      cases Tag.ofByte? first with
      | some tag => exact (ih (Nat.le_of_succ_le_succ le)).readPayload tag
      | none => exact .throw _

end Trees

/-- Bytes that are read as a whole are read with none left. -/
theorem read_of_ofBytes {bytes : Bytes} {tree : Encoded} (reads : ofBytes bytes = .ok tree) :
    read bytes = .ok (tree, []) := by
  obtain ⟨fits, rfl⟩ := ofBytes_eq_ok_iff.1 reads
  simpa using read_write_append fits []

/-- Bytes that are read as a whole end too early wherever they are cut. -/
theorem ofBytes_of_cut {front more : Bytes} {tree : Encoded}
    (reads : ofBytes (front ++ more) = .ok tree) (cut : more ≠ []) :
    ofBytes front = .error .truncated := by
  have whole :
      (readWithin ample (front ++ more).length).outcome (front ++ more) = .ok (tree, []) :=
    read_of_ofBytes reads
  have extended :
      Extends (readWithin ample front.length) (readWithin ample (front ++ more).length) :=
    extends_readWithin (by simp)
  have fails : read front = .error .truncated := by
    rcases found : read front with fault | ⟨early, rest⟩
    · by_cases truncated : fault = .truncated
      · rw [truncated]
      · cases whole.symm.trans (extended.error found truncated)
    -- A tree at the front would leave the bytes behind the cut, and the whole leaves none.
    · have same := whole.symm.trans (extended.ok found)
      simp [cut] at same
  rw [ofBytes_eq, fails]
  rfl

/-- With more bytes behind, these are left over. -/
theorem ofBytes_append {bytes more : Bytes} {tree : Encoded} (reads : ofBytes bytes = .ok tree)
    (added : more ≠ []) :
    ofBytes (bytes ++ more) = .error (.trailing more.length) := by
  obtain ⟨fits, rfl⟩ := ofBytes_eq_ok_iff.1 reads
  rw [ofBytes_eq, read_write_append fits more]
  exact if_neg added

end Encoded

namespace AttributeValue

/-- The value is written with these bytes, its set members in their order or sorted. -/
def Writes (value : AttributeValue) (bytes : Bytes) : Prop :=
  value.serialize = .ok bytes ∨ value.serializeCanonical = .ok bytes

/-- Reading the bytes fails, and the report is one of a failed decryption, in those words. -/
def RefusedAs (bytes : Bytes) (words : String) : Prop :=
  ∃ error, (deserialize bytes).mapError Error.undecodable = .error error ∧
    error.kind = .decryption ∧
    ∀ complaint, error.message complaint = "decryption failed: " ++ words

theorem refusedAs_of_ofBytes {bytes : Bytes} {fault : DecodeError}
    (fails : Encoded.ofBytes bytes = .error fault) :
    RefusedAs bytes fault.message := by
  refine ⟨.undecodable fault, ?_, rfl, fun _ => rfl⟩
  rw [deserialize, fails]
  rfl

theorem Writes.ofBytes {value : AttributeValue} {bytes : Bytes} (written : Writes value bytes) :
    ∃ tree, Encoded.ofBytes bytes = .ok tree := by
  rcases written with written | written
  · obtain ⟨tree, -, fits, rfl⟩ := serialize_eq_ok_iff.1 written
    exact ⟨tree, Encoded.ofBytes_write fits⟩
  · obtain ⟨tree, -, fits, rfl⟩ := serialize_eq_ok_iff.1 written
    exact ⟨tree, Encoded.ofBytes_write fits⟩

/-- The bytes of a value, cut anywhere, are refused as truncated, and with any bytes behind, as so
many trailing bytes. No value is written with a part at the front of them. -/
theorem serialize_prefixFree {value : AttributeValue} {bytes : Bytes}
    (written : value.Writes bytes) :
    (∀ front, front <+: bytes → front ≠ bytes →
      RefusedAs front "serialized attribute is truncated") ∧
      (∀ more, more ≠ [] →
        RefusedAs (bytes ++ more) s!"{more.length} trailing bytes after serialized attribute") ∧
      ∀ (other : AttributeValue) (front : Bytes), other.Writes front → front <+: bytes →
        front = bytes := by
  obtain ⟨tree, reads⟩ := written.ofBytes
  have truncated : ∀ front, front <+: bytes → front ≠ bytes →
      Encoded.ofBytes front = .error .truncated := by
    rintro front ⟨more, rfl⟩ proper
    exact Encoded.ofBytes_of_cut reads fun empty => proper (by rw [empty, List.append_nil])
  refine ⟨?_, ?_, ?_⟩
  · intro front isFront proper
    exact refusedAs_of_ofBytes (truncated front isFront proper)
  · intro more added
    exact refusedAs_of_ofBytes (Encoded.ofBytes_append reads added)
  · intro other front writes isFront
    obtain ⟨early, readsFront⟩ := writes.ofBytes
    by_contra proper
    cases readsFront.symm.trans (truncated front isFront proper)

namespace Sample

-- A set in a list, with the length of its second member after 15 bytes.
def paired : AttributeValue := .list [.stringSet ["b", "a"], .null false]

def pairedBytes : Bytes :=
  [0x4C, 0, 0, 0, 2, 0x73, 0, 0, 0, 2, 0, 0, 0, 1, 0x62, 0, 0, 0, 1, 0x61, 0x30]

end Sample

open Sample in
/-- Within the second member's length or after the set, the list ends too early. -/
theorem refusedAs_paired :
    paired.serialize = .ok pairedBytes ∧
      RefusedAs (pairedBytes.take 17) "serialized attribute is truncated" ∧
      RefusedAs (pairedBytes.take 20) "serialized attribute is truncated" ∧
      RefusedAs (pairedBytes ++ [0x30, 0x30])
        s!"{2} trailing bytes after serialized attribute" := by
  have written : paired.serialize = .ok pairedBytes := rfl
  obtain ⟨cut, extended, -⟩ := serialize_prefixFree (.inl written)
  exact ⟨written, cut _ (List.take_prefix _ _) (by decide),
    cut _ (List.take_prefix _ _) (by decide), extended [0x30, 0x30] (by decide)⟩

end AttributeValue

end ItemSeal
