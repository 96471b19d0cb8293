import ItemSeal.Proofs.Codec.Decoding
import Mathlib.Algebra.GroupWithZero.Nat

/-!
The room that reading asks for. It hangs on the bytes alone: whatever a reader is run in, it asks
for the room that it notes when it is run in lists of numbers, in that order, and apart from that
comes to one outcome (`Encoded.Asks`, which composes along the readers). Reading in any memory is
therefore all these requests in a row, and then the outcome of the reading that has all room
(`Encoded.ofBytesWith_eq`).

What a map announces is asked for before anything that follows is looked at
(`Encoded.demands_map`), but bytes that are read to their end have asked for no more entries than
there are bytes (`Encoded.sum_demands_le`): each entry that was read takes a byte at least.
-/

namespace ItemSeal.Encoded

/-- Notes for how many entries room is asked. -/
def noted (count : Nat) : StateM (List Nat) Unit :=
  modify (· ++ [count])

/-- For how many entries room is asked in reading a whole byte string, one
request after the other. -/
def demands (bytes : Bytes) : List Nat :=
  ((ofBytesWith noted bytes).run []).2

/-- The requests are those of the value at the front. -/
theorem demands_eq {bytes : Bytes} {outcome : Except DecodeError (Encoded × Bytes)}
    {asked : List Nat} (notes : ∀ log,
      ((readWithin noted bytes.length).run bytes).run.run log = (outcome, log ++ asked)) :
    demands bytes = asked := by
  unfold demands ofBytesWith
  rw [StateT.run_bind, notes, List.nil_append]
  rfl

/-! ## Readers in a row -/

section Asking

variable {m : Type → Type} [Monad m] {reserve : Nat → m Unit} {α β : Type}

/-- The reader asks for the room that the other one notes, and then comes to what the
other comes to. If that is a value, the room is within the bytes that were taken off,
with so many to spare. -/
def Asks (reserve : Nat → m Unit) (spare : Nat) (noting : Reader (StateM (List Nat)) α)
    (reader : Reader m α) : Prop :=
  ∀ bytes, ∃ outcome asked,
    (∀ log, (noting.run bytes).run.run log = (outcome, log ++ asked)) ∧
    (reader.run bytes).run = (do forM asked reserve; return outcome) ∧
    ∀ value rest, outcome = .ok (value, rest) → asked.sum + spare + rest.length ≤ bytes.length

variable [LawfulMonad m]

/-- A reader that needs nothing else asks for no room. -/
theorem Asks.of (step : Bytes → Except DecodeError (α × Bytes)) {spare : Nat}
    (takes : ∀ bytes value rest, step bytes = .ok (value, rest) →
      spare + rest.length ≤ bytes.length) :
    Asks reserve spare (.of step) (.of step) := by
  refine fun bytes => ⟨step bytes, [], fun log => ?_, ?_, fun value rest reads => ?_⟩
  · rw [List.append_nil]
    rfl
  · rw [List.forM_nil, pure_bind]
    rfl
  · rw [List.sum_nil, Nat.zero_add]
    exact takes bytes value rest reads

theorem Asks.pure (value : α) : Asks reserve 0 (Pure.pure value) (Pure.pure value) :=
  .of (fun bytes => .ok (value, bytes)) fun bytes _ _ reads => by
    cases reads
    exact Nat.le_of_eq (Nat.zero_add _)

theorem Asks.throw (fault : DecodeError) (spare : Nat) :
    Asks reserve spare (MonadExcept.throw fault : Reader _ α) (MonadExcept.throw fault) := by
  refine fun bytes => ⟨.error fault, [], fun log => ?_, ?_, fun _ _ reads => by cases reads⟩
  · rw [List.append_nil]
    rfl
  · simp

theorem Asks.bind {spare more : Nat} {noting : Reader (StateM (List Nat)) α} {reader : Reader m α}
    {notingNext : α → Reader (StateM (List Nat)) β} {next : α → Reader m β}
    (asks : Asks reserve spare noting reader)
    (asksNext : ∀ a, Asks reserve more (notingNext a) (next a)) :
    Asks reserve (spare + more) (noting >>= notingNext) (reader >>= next) := by
  intro bytes
  obtain ⟨outcome, asked, notes, runs, pays⟩ := asks bytes
  cases outcome with
  | error fault =>
      refine ⟨.error fault, asked, fun log => ?_, ?_, fun _ _ reads => by cases reads⟩
      · rw [StateT.run_bind, ExceptT.run_bind, StateT.run_bind, notes]
        rfl
      · rw [StateT.run_bind, ExceptT.run_bind, runs, bind_assoc]
        simp only [pure_bind]
  | ok read =>
      obtain ⟨a, between⟩ := read
      obtain ⟨outcome, askedNext, notesNext, runsNext, paysNext⟩ := asksNext a between
      refine ⟨outcome, asked ++ askedNext, fun log => ?_, ?_, fun value rest reads => ?_⟩
      · rw [StateT.run_bind, ExceptT.run_bind, StateT.run_bind, notes, ← List.append_assoc]
        exact notesNext _
      · rw [StateT.run_bind, ExceptT.run_bind, runs, bind_assoc, List.forM_append, bind_assoc]
        simp only [pure_bind, runsNext]
      · have first := pays a between rfl
        have second := paysNext value rest reads
        rw [List.sum_append]
        omega

omit [LawfulMonad m] in
theorem Asks.mono {spare less : Nat} {noting : Reader (StateM (List Nat)) α} {reader : Reader m α}
    (asks : Asks reserve spare noting reader) (le : less ≤ spare) :
    Asks reserve less noting reader := by
  intro bytes
  obtain ⟨outcome, asked, notes, runs, pays⟩ := asks bytes
  refine ⟨outcome, asked, notes, runs, fun value rest reads => ?_⟩
  have paid := pays value rest reads
  omega

/-- A last step that only forms the result asks for nothing. -/
theorem Asks.andThen {spare : Nat} {noting : Reader (StateM (List Nat)) α} {reader : Reader m α}
    (asks : Asks reserve spare noting reader) (form : α → β) :
    Asks reserve spare (noting >>= fun result => Pure.pure (form result))
      (reader >>= fun result => Pure.pure (form result)) :=
  asks.bind fun result => .pure (form result)

/-- Room for what a reader has to spare may be asked for in front of it. -/
theorem Asks.reserved {count : Nat} {noting : Reader (StateM (List Nat)) α} {reader : Reader m α}
    (asks : Asks reserve count noting reader) :
    Asks reserve 0 (do noted count; noting) (do reserve count; reader) := by
  intro bytes
  have lifts : ((liftM (reserve count) : Reader m PUnit).run bytes).run =
      (do reserve count; return .ok (⟨⟩, bytes)) := by
    simp [Except.map]
  obtain ⟨outcome, asked, notes, runs, pays⟩ := asks bytes
  refine ⟨outcome, count :: asked, fun log => ?_, ?_, fun value rest reads => ?_⟩
  · rw [List.append_cons]
    exact notes (log ++ [count])
  · rw [StateT.run_bind, ExceptT.run_bind, lifts, List.forM_cons, bind_assoc, bind_assoc, ← runs]
    simp only [pure_bind]
  · have paid := pays value rest reads
    rw [List.sum_cons]
    omega

/-! ## Lengths, fields and texts -/

theorem asks_readBytes (count : Nat) :
    Asks reserve count (readBytes count) (readBytes count) := by
  refine .of _ fun bytes value rest reads => ?_
  split at reads
  · next enough =>
      cases reads
      rw [List.length_drop]
      omega
  · cases reads

theorem asks_readByte : Asks reserve 1 readByte readByte := by
  refine .of _ fun bytes value rest reads => ?_
  cases bytes with
  | nil => cases reads
  | cons byte others =>
      cases reads
      exact Nat.le_of_eq (Nat.add_comm _ _)

theorem asks_readLength : Asks reserve 4 readLength readLength :=
  (asks_readBytes 4).andThen Bytes.toNat

theorem asks_readField : Asks reserve 4 readField readField :=
  asks_readLength.bind fun length => (asks_readBytes length).mono (Nat.zero_le _)

theorem asks_readText : Asks reserve 4 readText readText := by
  have field : Asks reserve 4 readField readField := asks_readField
  refine field.bind fun found => (?_ : Asks reserve 0 _ _)
  cases Utf8.decode found with
  | ok text => exact .pure text
  | error fault => exact .throw _ 0

section Counted

variable {noting : Reader (StateM (List Nat)) α} {readOne : Reader m α}

/-- Each part has a byte to spare. -/
theorem Asks.readMany (asks : Asks reserve 1 noting readOne) (count : Nat) :
    Asks reserve count (readMany noting count) (readMany readOne count) := by
  induction count with
  | zero => exact .pure []
  | succ count ih =>
      have row := asks.bind fun first => ih.andThen (first :: ·)
      exact row.mono (Nat.le_of_eq (Nat.add_comm _ _))

theorem Asks.readCounted (asks : Asks reserve 1 noting readOne) :
    Asks reserve 0 (readCounted noting) (readCounted readOne) :=
  (asks_readLength.mono (Nat.zero_le _)).bind fun count =>
    (asks.readMany count).mono (Nat.zero_le _)

/-- The room for all parts is paid for by the parts. -/
theorem Asks.readReserved (asks : Asks reserve 1 noting readOne) :
    Asks reserve 0 (readReserved noted noting) (readReserved reserve readOne) :=
  (asks_readLength.mono (Nat.zero_le _)).bind fun count => (asks.readMany count).reserved

end Counted

/-! ## Trees -/

section Trees

variable {noting : Reader (StateM (List Nat)) Encoded} {readValue : Reader m Encoded}

theorem Asks.readEntry (asks : Asks reserve 1 noting readValue) :
    Asks reserve 1 (readEntry noting) (readEntry readValue) :=
  (asks_readText.mono (Nat.zero_le _)).bind fun name => asks.andThen (name, ·)

theorem Asks.readPayload (asks : Asks reserve 1 noting readValue) (tag : Tag) :
    Asks reserve 0 (readPayload noted noting tag) (readPayload reserve readValue tag) := by
  have text : Asks reserve 1 readText readText := asks_readText.mono (by decide)
  have field : Asks reserve 1 readField readField := asks_readField.mono (by decide)
  cases tag with
  | string => exact (text.andThen Encoded.string).mono (Nat.zero_le _)
  | number => exact (text.andThen Encoded.number).mono (Nat.zero_le _)
  | binary => exact (field.andThen Encoded.binary).mono (Nat.zero_le _)
  | stringSet => exact text.readCounted.andThen Encoded.stringSet
  | numberSet => exact text.readCounted.andThen Encoded.numberSet
  | binarySet => exact field.readCounted.andThen Encoded.binarySet
  | map => exact asks.readEntry.readReserved.andThen Encoded.map
  | list => exact asks.readCounted.andThen Encoded.list
  | null => exact .pure Encoded.null
  | bool => exact (asks_readByte.andThen Encoded.bool).mono (Nat.zero_le _)

/-- The byte that a value has to spare is its tag. -/
theorem asks_readWithin (reserve : Nat → m Unit) (bound : Nat) :
    Asks reserve 1 (readWithin noted bound) (readWithin reserve bound) := by
  induction bound with
  | zero => exact .throw _ 1
  | succ bound ih =>
      have tag : Asks reserve 1 readByte readByte := asks_readByte
      refine tag.bind fun first => (?_ : Asks reserve 0 _ _)
      cases Tag.ofByte? first with
      | some tag => exact ih.readPayload tag
      | none => exact .throw _ 0

end Trees

/-! ## Whole byte strings -/

/-- Reading a whole byte string is all its requests for room in a row, and then the outcome. -/
theorem ofBytesWith_eq (reserve : Nat → m Unit) (bytes : Bytes) :
    ofBytesWith reserve bytes = (do forM (demands bytes) reserve; return ofBytes bytes) := by
  obtain ⟨outcome, asked, notes, runs, -⟩ := asks_readWithin reserve bytes.length bytes
  obtain ⟨found, askedThere, notesThere, runsThere, -⟩ := asks_readWithin ample bytes.length bytes
  obtain ⟨rfl, same⟩ := Prod.mk.inj ((notes []).symm.trans (notesThere []))
  have comes : read bytes = outcome := by
    unfold read Reader.outcome
    rw [runsThere]
    rfl
  unfold ofBytesWith
  rw [runs, bind_assoc, demands_eq notes, ofBytes_eq, comes]
  simp only [pure_bind]

end Asking

section Demands

variable {bytes : Bytes}

/-- What is read to its end asks for no more entries than there are bytes. -/
theorem sum_demands_le {tree : Encoded} (reads : ofBytes bytes = .ok tree) :
    (demands bytes).sum ≤ bytes.length := by
  obtain ⟨outcome, asked, notes, runs, pays⟩ := asks_readWithin ample bytes.length bytes
  have comes : read bytes = outcome := runs
  rw [ofBytes_eq, comes] at reads
  obtain ⟨⟨found, rest⟩, here, -⟩ := Except.bind_eq_ok_iff.1 reads
  have paid := pays found rest here
  rw [demands_eq notes]
  omega

section Announced

variable {m : Type → Type} [Monad m] [LawfulMonad m]

theorem run_bind_of_pure {α β : Type} {first : Reader m α} {next : α → Reader m β}
    {front rest : Bytes} {a : α} (runs : (first.run front).run = pure (.ok (a, rest))) :
    ((first >>= next).run front).run = ((next a).run rest).run := by
  rw [StateT.run_bind, ExceptT.run_bind, runs, pure_bind]

/-- A count is read in the same way in every monad. -/
theorem run_readLength (bytes : Bytes) :
    ((readLength : Reader m Nat).run bytes).run = pure (readLength.outcome bytes) := by
  obtain ⟨digits, reads⟩ : ∃ digits, ∀ {m : Type → Type} [Monad m],
      ((readBytes 4 : Reader m Bytes).run bytes).run = pure digits := ⟨_, rfl⟩
  unfold readLength Reader.outcome
  rw [StateT.run_bind, ExceptT.run_bind, reads, pure_bind, StateT.run_bind, ExceptT.run_bind,
    reads]
  cases digits <;> rfl

end Announced

/-- Whatever follows, the count of a map is asked for first. -/
theorem demands_map {count : Nat} (counted : count < lengthBound) (more : Bytes) :
    ∃ later, demands (Tag.map.byte :: (lengthBytes count ++ more)) = count :: later := by
  generalize within : (lengthBytes count ++ more).length = bound
  have entry := (asks_readWithin ample bound).readEntry
  obtain ⟨outcome, later, notes, -, -⟩ := (entry.readMany count).andThen Encoded.map more
  refine ⟨later, demands_eq (fun log => (?_ : _ = (outcome, _)))⟩
  have counts :
      ((readLength : Reader (StateM (List Nat)) Nat).run (lengthBytes count ++ more)).run =
        pure (.ok (count, more)) := by
    rw [run_readLength, reads_readLength counted more]
  rw [List.length_cons, within, readWithin, run_bind_of_pure rfl]
  change ((readPayload noted (readWithin noted bound) .map).run _).run.run log = _
  rw [readPayload, readReserved, bind_assoc, run_bind_of_pure counts, List.append_cons]
  exact notes (log ++ [count])

end Demands

end ItemSeal.Encoded
