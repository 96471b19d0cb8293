import ItemSeal.Proofs.Codec.Reading
import ItemSeal.Proofs.Outcomes

/-!
What is read was written. `Encoded.Takes` says of a reader that it takes off the bytes of what it
gives, and composes along the readers as `Encoded.Reads` does in the other direction. The bytes
that are read as a whole are therefore the written forms of the trees that fit, and no others:
`Encoded.ofBytes_eq_ok_iff`.
-/

namespace ItemSeal.Encoded

/-- Whenever the reader succeeds, what it gives is sound and its bytes are
those that were taken off. -/
def Takes {α : Type} (reader : Reader Id α) (write : α → Bytes) (sound : α → Prop) : Prop :=
  ∀ bytes value rest, reader.outcome bytes = .ok (value, rest) →
    sound value ∧ bytes = write value ++ rest

/-! ## Readers in a row -/

section Composition

variable {α β : Type}

/-- Two readers in a row succeed if the first does and the second does on
what the first leaves. -/
theorem run_bind_eq_ok_iff {first : Reader Id α} {next : α → Reader Id β} {bytes rest : Bytes}
    {b : β} :
    (first >>= next).outcome bytes = .ok (b, rest) ↔
      ∃ a between, first.outcome bytes = .ok (a, between) ∧
        (next a).outcome between = .ok (b, rest) := by
  rw [outcome_bind, Except.bind_eq_ok_iff]
  exact Prod.exists

/-- A last step that only forms the result takes nothing. -/
theorem Takes.andThen {reader : Reader Id α} {write : α → Bytes} {sound : α → Prop}
    (takes : Takes reader write sound) {form : α → β} {write' : β → Bytes} {sound' : β → Prop}
    (agrees : ∀ value, sound value → sound' (form value) ∧ write' (form value) = write value) :
    Takes (reader >>= fun result => pure (form result)) write' sound' := by
  intro bytes value rest succeeds
  obtain ⟨a, between, read, formed⟩ := run_bind_eq_ok_iff.1 succeeds
  cases formed
  obtain ⟨good, taken⟩ := takes _ _ _ read
  obtain ⟨good', same⟩ := agrees a good
  exact ⟨good', same ▸ taken⟩

end Composition

/-! ## Lengths, fields and texts -/

theorem takes_readBytes (count : Nat) :
    Takes (readBytes count) id fun bytes => bytes.length = count := by
  intro bytes value rest succeeds
  change (if count ≤ bytes.length then _ else _) = _ at succeeds
  split at succeeds
  · next enough =>
      cases succeeds
      exact ⟨List.length_take_of_le enough, (List.take_append_drop count bytes).symm⟩
  · cases succeeds

theorem takes_readByte : Takes readByte (fun byte => [byte]) fun _ => True := by
  intro bytes value rest succeeds
  cases bytes with
  | nil => cases succeeds
  | cons byte others =>
      cases succeeds
      exact ⟨trivial, rfl⟩

theorem takes_readLength : Takes readLength lengthBytes (· < lengthBound) := by
  refine (takes_readBytes 4).andThen fun digits length => ⟨?_, ?_⟩
  · have bound := Bytes.toNat_lt digits
    rwa [length] at bound
  · have digitsBack := Bytes.ofNat_toNat digits
    rwa [length] at digitsBack

theorem takes_readField : Takes readField fieldBytes (fieldFits · = true) := by
  intro bytes value rest succeeds
  obtain ⟨length, between, readsLength, reads⟩ := run_bind_eq_ok_iff.1 succeeds
  obtain ⟨fits, rfl⟩ := takes_readLength _ _ _ readsLength
  obtain ⟨rfl, rfl⟩ := takes_readBytes _ _ _ _ reads
  exact ⟨decide_eq_true fits, (List.append_assoc _ _ _).symm⟩

theorem takes_readText : Takes readText textBytes (textFits · = true) := by
  intro bytes text rest succeeds
  obtain ⟨field, between, reads, decodes⟩ := run_bind_eq_ok_iff.1 succeeds
  obtain ⟨fits, rfl⟩ := takes_readField _ _ _ reads
  cases decoded : Utf8.decode field with
  | error fault =>
      rw [decoded] at decodes
      cases decodes
  | ok found =>
      rw [decoded] at decodes
      cases decodes
      rw [← Utf8.ofString_of_decode decoded] at fits ⊢
      exact ⟨fits, rfl⟩

section Counted

variable {α : Type} {readOne : Reader Id α} {write : α → Bytes} {sound : α → Prop}

theorem Takes.readMany (takes : Takes readOne write sound) (count : Nat) :
    Takes (readMany readOne count) (·.flatMap write) fun parts =>
      parts.length = count ∧ ∀ part ∈ parts, sound part := by
  induction count with
  | zero =>
      intro bytes parts rest succeeds
      cases succeeds
      exact ⟨⟨rfl, by simp⟩, rfl⟩
  | succ count ih =>
      intro bytes parts rest succeeds
      obtain ⟨first, between, readsFirst, more⟩ := run_bind_eq_ok_iff.1 succeeds
      obtain ⟨others, last, readsOthers, built⟩ := run_bind_eq_ok_iff.1 more
      cases built
      obtain ⟨firstSound, rfl⟩ := takes _ _ _ readsFirst
      obtain ⟨⟨rfl, othersSound⟩, rfl⟩ := ih _ _ _ readsOthers
      exact ⟨⟨rfl, List.forall_mem_cons.2 ⟨firstSound, othersSound⟩⟩, by simp⟩

theorem Takes.readCounted (takes : Takes readOne write sound) :
    Takes (readCounted readOne)
      (fun parts => lengthBytes parts.length ++ parts.flatMap write)
      fun parts => parts.length < lengthBound ∧ ∀ part ∈ parts, sound part := by
  intro bytes parts rest succeeds
  obtain ⟨count, between, readsLength, readsParts⟩ := run_bind_eq_ok_iff.1 succeeds
  obtain ⟨fits, rfl⟩ := takes_readLength _ _ _ readsLength
  obtain ⟨⟨rfl, each⟩, rfl⟩ := takes.readMany _ _ _ _ readsParts
  exact ⟨⟨fits, each⟩, (List.append_assoc _ _ _).symm⟩

/-- Members that fit make a set that fits, if they can be counted. -/
theorem allFit_of_counted {fit : α → Bool} {members : List α}
    (counted : members.length < lengthBound ∧ ∀ member ∈ members, fit member = true) :
    (decide (members.length < lengthBound) && members.all fit) = true := by
  rw [decide_eq_true counted.1, Bool.true_and, List.all_eq_true]
  exact counted.2

end Counted

/-! ## Trees -/

section Trees

variable {readValue : Reader Id Encoded}

theorem Takes.readEntry (takes : Takes readValue write (fits · = true)) :
    Takes (readEntry readValue) entryBytes fun entry =>
      textFits entry.1 = true ∧ entry.2.fits = true := by
  intro bytes entry rest succeeds
  obtain ⟨name, between, readsName, more⟩ := run_bind_eq_ok_iff.1 succeeds
  obtain ⟨value, last, readsValue, built⟩ := run_bind_eq_ok_iff.1 more
  cases built
  obtain ⟨nameFits, rfl⟩ := takes_readText _ _ _ readsName
  obtain ⟨valueFits, rfl⟩ := takes _ _ _ readsValue
  exact ⟨⟨nameFits, valueFits⟩, (List.append_assoc _ _ _).symm⟩

/-- What follows a tag is the payload of a tree with that tag. -/
theorem Takes.readPayload (takes : Takes readValue write (fits · = true)) (tag : Tag) :
    Takes (readPayload ample readValue tag) payload fun tree =>
      tree.tag = tag ∧ tree.fits = true := by
  cases tag with
  | string => exact takes_readText.andThen fun text fits => ⟨⟨rfl, fits⟩, rfl⟩
  | number => exact takes_readText.andThen fun text fits => ⟨⟨rfl, fits⟩, rfl⟩
  | binary => exact takes_readField.andThen fun bytes fits => ⟨⟨rfl, fits⟩, rfl⟩
  | stringSet =>
      exact takes_readText.readCounted.andThen fun members counted =>
        ⟨⟨rfl, allFit_of_counted counted⟩, rfl⟩
  | numberSet =>
      exact takes_readText.readCounted.andThen fun members counted =>
        ⟨⟨rfl, allFit_of_counted counted⟩, rfl⟩
  | binarySet =>
      exact takes_readField.readCounted.andThen fun members counted =>
        ⟨⟨rfl, allFit_of_counted counted⟩, rfl⟩
  | map =>
      refine takes.readEntry.readCounted.andThen fun entries counted => ⟨⟨rfl, ?_⟩, rfl⟩
      rw [fits, decide_eq_true counted.1, Bool.true_and, entriesFit_iff]
      exact counted.2
  | list =>
      refine takes.readCounted.andThen fun items counted => ⟨⟨rfl, ?_⟩, rfl⟩
      rw [fits, decide_eq_true counted.1, Bool.true_and, itemsFit_iff]
      exact counted.2
  | null =>
      intro bytes tree rest succeeds
      cases succeeds
      exact ⟨⟨rfl, rfl⟩, rfl⟩
  | bool => exact takes_readByte.andThen fun payload _ => ⟨⟨rfl, rfl⟩, rfl⟩

/-- Whatever is read is the written form of a tree that fits. -/
theorem takes_readWithin (bound : Nat) :
    Takes (readWithin ample bound) write (fits · = true) := by
  induction bound with
  | zero =>
      intro bytes tree rest succeeds
      cases succeeds
  | succ bound ih =>
      intro bytes tree rest succeeds
      obtain ⟨first, between, readsTag, more⟩ := run_bind_eq_ok_iff.1 succeeds
      obtain ⟨-, rfl⟩ := takes_readByte _ _ _ readsTag
      cases known : Tag.ofByte? first with
      | none =>
          rw [known] at more
          cases more
      | some tag =>
          rw [known] at more
          obtain ⟨⟨rfl, fits⟩, rfl⟩ := ih.readPayload tag _ _ _ more
          rw [write_eq, Tag.byte_of_ofByte? known]
          exact ⟨fits, rfl⟩

end Trees

/-- Byte strings that are read as a whole are the written forms of the trees that fit. -/
theorem ofBytes_eq_ok_iff {bytes : Bytes} {tree : Encoded} :
    ofBytes bytes = .ok tree ↔ tree.fits = true ∧ tree.write = bytes := by
  constructor
  · intro reads
    rw [ofBytes_eq] at reads
    obtain ⟨⟨found, rest⟩, readsFront, checked⟩ := Except.bind_eq_ok_iff.1 reads
    obtain ⟨fits, taken⟩ := takes_readWithin _ _ _ _ readsFront
    unfold whole at checked
    dsimp only at checked
    split at checked
    · next ends =>
        cases checked
        rw [ends, List.append_nil] at taken
        exact ⟨fits, taken.symm⟩
    · cases checked
  · rintro ⟨fits, rfl⟩
    exact ofBytes_write fits

end ItemSeal.Encoded
