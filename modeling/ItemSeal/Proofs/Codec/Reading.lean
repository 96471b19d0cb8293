import ItemSeal.AttributeValue.Encoded
import ItemSeal.Proofs.ByteStrings

/-!
Reading takes back what writing gives: `Encoded.Reads` relates a reader to the bytes that it takes
off the front of whatever follows them, and composes along the readers. `Encoded.ofBytes_write` is
the law of a whole tree; the trees that fit are therefore told apart by their bytes.
-/

namespace ItemSeal.Encoded

/-- Two readers in a row: the second reads what the first leaves. -/
theorem outcome_bind {α β : Type} (first : Reader Id α) (next : α → Reader Id β) (bytes : Bytes) :
    (first >>= next).outcome bytes =
      first.outcome bytes >>= fun read => (next read.1).outcome read.2 := by
  unfold Reader.outcome
  rw [StateT.run_bind]
  change ((first.run bytes).run >>= ExceptT.bindCont _ : Id _).run = _
  rcases (first.run bytes).run with fault | ⟨a, rest⟩ <;> rfl

/-- In front of any bytes the reader takes off exactly these and gives the value. -/
def Reads {α : Type} (reader : Reader Id α) (bytes : Bytes) (value : α) : Prop :=
  ∀ rest, reader.outcome (bytes ++ rest) = .ok (value, rest)

/-! ## Readers in a row -/

section Composition

variable {α β : Type}

theorem Reads.pure (value : α) : Reads (Pure.pure value : Reader Id α) [] value := by
  intro rest
  rfl

theorem Reads.bind {first : Reader Id α} {next : α → Reader Id β} {front back : Bytes} {a : α}
    {b : β} (readsFirst : Reads first front a) (readsNext : Reads (next a) back b) :
    Reads (first >>= next) (front ++ back) b := by
  intro rest
  rw [outcome_bind, List.append_assoc, readsFirst]
  exact readsNext rest

/-- A last step that only forms the result takes nothing. -/
theorem Reads.andThen {reader : Reader Id α} {bytes : Bytes} {value : α}
    (reads : Reads reader bytes value) (form : α → β) :
    Reads (reader >>= fun result => Pure.pure (form result)) bytes (form value) := by
  rw [← List.append_nil bytes]
  exact reads.bind (.pure _)

end Composition

/-! ## Lengths, fields and texts -/

theorem reads_readBytes {count : Nat} {bytes : Bytes} (length : bytes.length = count) :
    Reads (readBytes count) bytes bytes := by
  intro rest
  have enough : count ≤ (bytes ++ rest).length := by
    rw [List.length_append]
    omega
  subst length
  change (if bytes.length ≤ (bytes ++ rest).length then _ else _) = _
  rw [if_pos enough, List.take_left, List.drop_left]

theorem reads_readByte (byte : UInt8) : Reads readByte [byte] byte := by
  intro rest
  rfl

theorem reads_readLength {n : Nat} (fits : n < lengthBound) :
    Reads readLength (lengthBytes n) n := by
  have back : Bytes.toNat (lengthBytes n) = n := Bytes.toNat_ofNat fits
  have reads : Reads (readBytes 4) (lengthBytes n) (lengthBytes n) :=
    reads_readBytes (Bytes.length_ofNat 4 n)
  have whole := reads.andThen Bytes.toNat
  rw [back] at whole
  exact whole

theorem reads_readField {bytes : Bytes} (fits : fieldFits bytes = true) :
    Reads readField (fieldBytes bytes) bytes :=
  (reads_readLength (of_decide_eq_true fits)).bind (reads_readBytes rfl)

theorem reads_readText {text : String} (fits : textFits text = true) :
    Reads readText (textBytes text) text := by
  have reads : Reads readField (textBytes text) (Bytes.ofString text) := reads_readField fits
  intro rest
  unfold readText
  rw [outcome_bind, reads rest]
  refine Eq.trans (pure_bind _ _) ?_
  simp only [Utf8.decode_ofString]
  rfl

/-- Parts in a row are read one after the other. -/
theorem reads_readMany {α : Type} {readOne : Reader Id α} {write : α → Bytes} {parts : List α}
    (reads : ∀ part ∈ parts, Reads readOne (write part) part) :
    Reads (readMany readOne parts.length) (parts.flatMap write) parts := by
  induction parts with
  | nil => exact .pure []
  | cons first others ih =>
      have head : Reads readOne (write first) first := reads first List.mem_cons_self
      have tail : Reads (readMany readOne others.length) (others.flatMap write) others :=
        ih fun part member => reads part (List.mem_cons_of_mem _ member)
      rw [List.flatMap_cons]
      exact head.bind (tail.andThen (first :: ·))

theorem reads_readCounted {α : Type} {readOne : Reader Id α} {write : α → Bytes} {parts : List α}
    (fits : parts.length < lengthBound)
    (reads : ∀ part ∈ parts, Reads readOne (write part) part) :
    Reads (readCounted readOne) (lengthBytes parts.length ++ parts.flatMap write) parts :=
  (reads_readLength fits).bind (reads_readMany reads)

/-! ## Trees -/

/-- The bytes of an entry: its name, then its value. -/
def entryBytes (entry : String × Encoded) : Bytes :=
  textBytes entry.1 ++ entry.2.write

theorem writeItems_eq (items : List Encoded) : writeItems items = items.flatMap write := by
  induction items with
  | nil => rfl
  | cons item rest ih => rw [writeItems, ih, List.flatMap_cons]

theorem writeEntries_eq (entries : List (String × Encoded)) :
    writeEntries entries = entries.flatMap entryBytes := by
  induction entries with
  | nil => rfl
  | cons entry rest ih => rw [writeEntries, ih, List.flatMap_cons, entryBytes]

theorem itemsFit_iff {items : List Encoded} :
    itemsFit items = true ↔ ∀ item ∈ items, item.fits = true := by
  induction items with
  | nil => simp [itemsFit]
  | cons item rest ih => simp [itemsFit, ih]

theorem entriesFit_iff {entries : List (String × Encoded)} :
    entriesFit entries = true ↔ ∀ entry ∈ entries, textFits entry.1 = true ∧
      entry.2.fits = true := by
  induction entries with
  | nil => simp [entriesFit]
  | cons entry rest ih => simp [entriesFit, ih]

theorem reads_readEntry {readValue : Reader Id Encoded} {entry : String × Encoded}
    (fits : textFits entry.1 = true) (reads : Reads readValue entry.2.write entry.2) :
    Reads (readEntry readValue) (entryBytes entry) entry :=
  (reads_readText fits).bind (reads.andThen (entry.1, ·))

/-- The tag of a tree. -/
def tag : Encoded → Tag
  | .string _ => .string
  | .number _ => .number
  | .binary _ => .binary
  | .stringSet _ => .stringSet
  | .numberSet _ => .numberSet
  | .binarySet _ => .binarySet
  | .map _ => .map
  | .list _ => .list
  | .null => .null
  | .bool _ => .bool

/-- The bytes of a tree after its tag. -/
def payload : Encoded → Bytes
  | .string text => textBytes text
  | .number text => textBytes text
  | .binary bytes => fieldBytes bytes
  | .stringSet members => lengthBytes members.length ++ members.flatMap textBytes
  | .numberSet members => lengthBytes members.length ++ members.flatMap textBytes
  | .binarySet members => lengthBytes members.length ++ members.flatMap fieldBytes
  | .map entries => lengthBytes entries.length ++ entries.flatMap entryBytes
  | .list items => lengthBytes items.length ++ items.flatMap write
  | .null => []
  | .bool payload => [payload]

theorem write_eq (encoded : Encoded) : encoded.write = encoded.tag.byte :: encoded.payload := by
  cases encoded <;> simp only [write, tag, payload, writeItems_eq, writeEntries_eq]

/-- The trees right inside a tree. -/
def children : Encoded → List Encoded
  | .map entries => entries.map (·.2)
  | .list items => items
  | _ => []

/-- What is inside a tree is written within its payload. -/
theorem length_write_le_payload {encoded child : Encoded} (member : child ∈ encoded.children) :
    child.write.length ≤ encoded.payload.length := by
  cases encoded with
  | map entries =>
      obtain ⟨entry, inside, rfl⟩ := List.mem_map.1 member
      have part : (entryBytes entry).length ≤ (entries.flatMap entryBytes).length :=
        Bytes.length_le_flatMap inside
      simp only [entryBytes, payload, List.length_append] at part ⊢
      omega
  | list items =>
      have part : child.write.length ≤ (items.flatMap write).length :=
        Bytes.length_le_flatMap member
      simp only [payload, List.length_append]
      omega
  | _ => cases member

/-- A tree that fits has a payload that fits, and so do the trees inside. -/
theorem fits_of_mem_children {encoded child : Encoded} (fits : encoded.fits = true)
    (member : child ∈ encoded.children) : child.fits = true := by
  cases encoded with
  | map entries =>
      obtain ⟨entry, inside, rfl⟩ := List.mem_map.1 member
      simp only [Encoded.fits, Bool.and_eq_true] at fits
      exact (entriesFit_iff.1 fits.2 entry inside).2
  | list items =>
      simp only [Encoded.fits, Bool.and_eq_true] at fits
      exact itemsFit_iff.1 fits.2 child member
  | _ => cases member

/-- A payload is read if the trees inside are. -/
theorem reads_readPayload {readValue : Reader Id Encoded} {encoded : Encoded}
    (fits : encoded.fits = true)
    (reads : ∀ child ∈ encoded.children, Reads readValue child.write child) :
    Reads (readPayload ample readValue encoded.tag) encoded.payload encoded := by
  cases encoded with
  | string text => exact (reads_readText fits).andThen Encoded.string
  | number text => exact (reads_readText fits).andThen Encoded.number
  | binary bytes => exact (reads_readField fits).andThen Encoded.binary
  | stringSet members =>
      simp only [Encoded.fits, Bool.and_eq_true, decide_eq_true_eq, List.all_eq_true] at fits
      exact (reads_readCounted fits.1 fun text member =>
        reads_readText (fits.2 text member)).andThen
        Encoded.stringSet
  | numberSet members =>
      simp only [Encoded.fits, Bool.and_eq_true, decide_eq_true_eq, List.all_eq_true] at fits
      exact (reads_readCounted fits.1 fun text member =>
        reads_readText (fits.2 text member)).andThen
        Encoded.numberSet
  | binarySet members =>
      simp only [Encoded.fits, Bool.and_eq_true, decide_eq_true_eq, List.all_eq_true] at fits
      exact (reads_readCounted fits.1 fun bytes member =>
        reads_readField (fits.2 bytes member)).andThen
        Encoded.binarySet
  | map entries =>
      simp only [Encoded.fits, Bool.and_eq_true, decide_eq_true_eq] at fits
      have each : ∀ entry ∈ entries, Reads (readEntry readValue) (entryBytes entry) entry :=
        fun entry member => reads_readEntry (entriesFit_iff.1 fits.2 entry member).1
          (reads entry.2 (List.mem_map_of_mem member))
      exact (reads_readCounted fits.1 each).andThen Encoded.map
  | list items =>
      simp only [Encoded.fits, Bool.and_eq_true, decide_eq_true_eq] at fits
      exact (reads_readCounted fits.1 reads).andThen Encoded.list
  | null => exact .pure _
  | bool payload => exact (reads_readByte payload).andThen Encoded.bool

/-- A tree is read within any bound that its bytes keep. Every tree inside is shorter by its tag
at least, so the induction is on the bound. -/
theorem reads_readWithin {bound : Nat} {encoded : Encoded} (fits : encoded.fits = true)
    (enough : encoded.write.length ≤ bound) :
    Reads (readWithin ample bound) encoded.write encoded := by
  induction bound generalizing encoded with
  | zero =>
      rw [write_eq, List.length_cons] at enough
      exact absurd enough (Nat.not_succ_le_zero _)
  | succ bound ih =>
      have inside :
          ∀ child ∈ encoded.children, Reads (readWithin ample bound) child.write child := by
        intro child member
        apply ih (fits_of_mem_children fits member)
        have shorter := length_write_le_payload member
        rw [write_eq, List.length_cons] at enough
        omega
      rw [write_eq]
      refine (reads_readByte encoded.tag.byte).bind ?_
      rw [Tag.ofByte?_byte]
      exact reads_readPayload fits inside

/-- What is written is read back from the front of any bytes. -/
theorem read_write_append {encoded : Encoded} (fits : encoded.fits = true) (rest : Bytes) :
    read (encoded.write ++ rest) = .ok (encoded, rest) := by
  have enough : encoded.write.length ≤ (encoded.write ++ rest).length := by
    rw [List.length_append]
    omega
  exact reads_readWithin fits enough rest

theorem ofBytes_eq (bytes : Bytes) : ofBytes bytes = read bytes >>= whole :=
  rfl

/-- What is written is read back as a whole. -/
theorem ofBytes_write {encoded : Encoded} (fits : encoded.fits = true) :
    ofBytes encoded.write = .ok encoded := by
  have read := read_write_append fits []
  rw [List.append_nil] at read
  rw [ofBytes_eq, read]
  rfl

end ItemSeal.Encoded
