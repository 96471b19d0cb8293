import ItemSeal.AttributeValue.Scan

/-!
Scans stay inside the bytes and come to an end. `Scan.Tracks` ties a scan to the reader of the
same form in the same memory: it breaks off where the reader is refused room and nowhere else, it
comes to what the reader comes to on the bytes from its position on, and its cursor advances over
them by slices that follow each other (`Cursor.Advances`). The relation composes along the scans,
and since what is inside a value starts behind its tag, a depth above the number of the bytes is
never used up (`Scan.tracks_readWithin`).
-/

namespace ItemSeal

/-! ## Cursors -/

/-- The slices, the latest first, follow each other from the first byte up to the position. -/
def Slice.Tile : List Slice → Nat → Prop
  | [], position => position = 0
  | slice :: earlier, position =>
      slice.stop = position ∧ slice.start ≤ slice.stop ∧ Slice.Tile earlier slice.start

theorem Slice.Tile.le {taken : List Slice} {position : Nat} {slice : Slice}
    (tile : Slice.Tile taken position) (member : slice ∈ taken) :
    slice.start ≤ slice.stop ∧ slice.stop ≤ position := by
  induction taken generalizing position with
  | nil => cases member
  | cons latest earlier ih =>
      obtain ⟨ends, ordered, before⟩ := tile
      rcases List.mem_cons.1 member with rfl | later
      · exact ⟨ordered, Nat.le_of_eq ends⟩
      · have inside := ih before later
        exact ⟨inside.1, by omega⟩

namespace Cursor

/-- The cursor has come over the bytes to its position, slice by slice. -/
structure Inside (cursor : Cursor) (bytes : Bytes) : Prop where
  tile : Slice.Tile cursor.taken cursor.position
  within : cursor.position ≤ bytes.length

theorem inside_start (bytes : Bytes) : Inside {} bytes :=
  ⟨rfl, Nat.zero_le _⟩

/-- From a place inside the bytes the cursor goes on to a later one, and on the way takes no
more slices than bytes. -/
structure Advances (bytes : Bytes) (before after : Cursor) : Prop where
  inside : after.Inside bytes
  forward : before.position ≤ after.position
  paid : after.taken.length + before.position ≤ before.taken.length + after.position

variable {bytes : Bytes} {before between after : Cursor}

theorem Advances.refl (inside : before.Inside bytes) : before.Advances bytes before :=
  ⟨inside, Nat.le_refl _, Nat.le_refl _⟩

theorem Advances.trans (first : before.Advances bytes between)
    (second : between.Advances bytes after) : before.Advances bytes after := by
  have forward := first.forward
  have later := second.forward
  have paid := first.paid
  have laterPaid := second.paid
  exact ⟨second.inside, by omega, by omega⟩

/-- The cursor after another slice of that many bytes. -/
def moved (cursor : Cursor) (count : Nat) : Cursor :=
  { position := cursor.position + count
    taken := ⟨cursor.position, cursor.position + count⟩ :: cursor.taken }

theorem Inside.moved {count : Nat} (inside : before.Inside bytes)
    (enough : before.position + count ≤ bytes.length) :
    (before.moved count).Inside bytes :=
  ⟨⟨rfl, Nat.le_add_right _ _, inside.tile⟩, enough⟩

/-- A slice of some bytes pays for itself. -/
theorem Inside.advances {count : Nat} (inside : before.Inside bytes)
    (enough : before.position + count ≤ bytes.length) (taken : 1 ≤ count) :
    before.Advances bytes (before.moved count) := by
  refine ⟨inside.moved enough, Nat.le_add_right _ _, ?_⟩
  simp only [Cursor.moved, List.length_cons]
  omega

end Cursor

/-! ## Readers at a position -/

namespace Encoded

/-- What a reader comes to in a memory and what is left of this, unless room is refused. -/
def Reader.runIn {σ α : Type} (reader : Reader (StateT σ Option) α) (bytes : Bytes) (memory : σ) :
    Option (Except DecodeError (α × Bytes) × σ) :=
  (reader.run bytes).run.run memory

section Readers

variable {σ α β : Type} {reader : Reader (StateT σ Option) α}
  {next : α → Reader (StateT σ Option) β} {bytes rest : Bytes} {position count : Nat}
  {memory left : σ}

/-- A byte at a position is followed by what stands at the next. -/
theorem of_drop_eq_cons {byte : UInt8} (next : bytes.drop position = byte :: rest) :
    position + 1 ≤ bytes.length ∧ bytes.drop (position + 1) = rest := by
  have length := congrArg List.length next
  rw [List.length_drop, List.length_cons] at length
  refine ⟨by omega, ?_⟩
  rw [← List.drop_drop, next, List.drop_one, List.tail_cons]

theorem runIn_bind (bytes : Bytes) (memory : σ) :
    (reader >>= next).runIn bytes memory =
      match reader.runIn bytes memory with
      | none => none
      | some (.error fault, left) => some (.error fault, left)
      | some (.ok (value, rest), left) => (next value).runIn rest left := by
  change (reader.runIn bytes memory).bind _ = _
  rcases reader.runIn bytes memory with _ | ⟨fault | ⟨value, rest⟩, left⟩ <;> rfl

theorem runIn_bind_of_ok {value : α}
    (run : reader.runIn bytes memory = some (.ok (value, rest), left)) :
    (reader >>= next).runIn bytes memory = (next value).runIn rest left := by
  rw [runIn_bind, run]

theorem runIn_bind_of_error {fault : DecodeError}
    (run : reader.runIn bytes memory = some (.error fault, left)) :
    (reader >>= next).runIn bytes memory = some (.error fault, left) := by
  rw [runIn_bind, run]

theorem runIn_readByte_drop {byte : UInt8} (next : bytes.drop position = byte :: rest) :
    readByte.runIn (bytes.drop position) memory =
      some (.ok (byte, bytes.drop (position + 1)), memory) := by
  rw [next, (of_drop_eq_cons next).2]
  rfl

theorem runIn_readByte_of_end (ends : bytes.drop position = []) :
    readByte.runIn (bytes.drop position) memory = some (.error .truncated, memory) := by
  rw [ends]
  rfl

theorem runIn_readBytes_drop (enough : position + count ≤ bytes.length) :
    (readBytes count).runIn (bytes.drop position) memory =
      some (.ok ((bytes.drop position).take count, bytes.drop (position + count)), memory) := by
  have long : count ≤ (bytes.drop position).length := by
    rw [List.length_drop]
    omega
  change some ((if _ then _ else _), memory) = _
  rw [if_pos long, List.drop_drop]

theorem runIn_readBytes_drop_of_lt (inside : position ≤ bytes.length)
    (short : bytes.length < position + count) :
    (readBytes count).runIn (bytes.drop position) memory = some (.error .truncated, memory) := by
  have few : ¬ count ≤ (bytes.drop position).length := by
    rw [List.length_drop]
    omega
  change some ((if _ then _ else _), memory) = _
  rw [if_neg few]

theorem runIn_readLength_drop (enough : position + 4 ≤ bytes.length) (memory : σ) :
    readLength.runIn (bytes.drop position) memory =
      some (.ok (Bytes.toNat ((bytes.drop position).take 4), bytes.drop (position + 4)),
        memory) :=
  runIn_bind_of_ok (runIn_readBytes_drop enough)

theorem runIn_readLength_drop_of_lt (inside : position ≤ bytes.length)
    (short : bytes.length < position + 4) :
    readLength.runIn (bytes.drop position) memory = some (.error .truncated, memory) :=
  runIn_bind_of_error (runIn_readBytes_drop_of_lt inside short)

end Readers

end Encoded

namespace Scan

/-! ## Runs -/

section Runs

variable {σ α β : Type} {scan : Scan σ α} {next : α → Scan σ β} {bytes : Bytes}
  {cursor between : Cursor} {memory left : σ}

theorem runFrom_bind (bytes : Bytes) (cursor : Cursor) (memory : σ) :
    (scan >>= next).runFrom bytes cursor memory =
      match scan.runFrom bytes cursor memory with
      | none => none
      | some ((.error fault, between), left) => some ((.error fault, between), left)
      | some ((.ok value, between), left) => (next value).runFrom bytes between left := by
  change (scan.runFrom bytes cursor memory).bind _ = _
  rcases scan.runFrom bytes cursor memory with _ | ⟨⟨fault | value, between⟩, left⟩ <;> rfl

theorem runFrom_bind_of_ok {value : α}
    (run : scan.runFrom bytes cursor memory = some ((.ok value, between), left)) :
    (scan >>= next).runFrom bytes cursor memory = (next value).runFrom bytes between left := by
  rw [runFrom_bind, run]

theorem runFrom_bind_of_error {fault : DecodeError}
    (run : scan.runFrom bytes cursor memory = some ((.error fault, between), left)) :
    (scan >>= next).runFrom bytes cursor memory = some ((.error fault, between), left) := by
  rw [runFrom_bind, run]

/-- Bytes that are there are taken as a slice, whose index is in range. -/
theorem runFrom_take {count : Nat} (enough : cursor.position + count ≤ bytes.length)
    (memory : σ) :
    (take count).runFrom bytes cursor memory =
      some ((.ok ((bytes.drop cursor.position).take count), cursor.moved count), memory) := by
  have part : (Slice.mk cursor.position (cursor.position + count)).of? bytes =
      some ((bytes.drop cursor.position).take count) := by
    rw [Slice.of?, if_pos ⟨Nat.le_add_right _ _, enough⟩, List.drop_take, Nat.add_sub_cancel_left]
  unfold take
  change runFrom (if _ then _ else _) bytes cursor memory = _
  dsimp only
  rw [if_pos enough, part]
  rfl

/-- Bytes that are not there leave the cursor where it is. -/
theorem runFrom_take_of_lt {count : Nat} (short : bytes.length < cursor.position + count) :
    (take count).runFrom bytes cursor memory = some ((.error .truncated, cursor), memory) := by
  unfold take
  change runFrom (if _ then _ else _) bytes cursor memory = _
  dsimp only
  rw [if_neg (Nat.not_le.2 short)]
  rfl

theorem runFrom_readByte {byte : UInt8} {rest : Bytes}
    (next : bytes.drop cursor.position = byte :: rest) :
    readByte.runFrom bytes cursor memory = some ((.ok byte, cursor.moved 1), memory) := by
  have taken := runFrom_take (Encoded.of_drop_eq_cons next).1 memory
  rw [next] at taken
  exact runFrom_bind_of_ok taken

theorem runFrom_readByte_of_end (ends : bytes.drop cursor.position = []) :
    readByte.runFrom bytes cursor memory = some ((.error .truncated, cursor), memory) :=
  runFrom_bind_of_error (runFrom_take_of_lt (Nat.lt_succ_of_le (List.drop_eq_nil_iff.1 ends)))

theorem runFrom_readLength_of_lt (short : bytes.length < cursor.position + 4) :
    readLength.runFrom bytes cursor memory = some ((.error .truncated, cursor), memory) :=
  runFrom_bind_of_error (runFrom_take_of_lt short)

theorem runFrom_readLength (enough : cursor.position + 4 ≤ bytes.length) (memory : σ) :
    readLength.runFrom bytes cursor memory =
      some ((.ok (Bytes.toNat ((bytes.drop cursor.position).take 4)), cursor.moved 4),
        memory) := by
  have taken := runFrom_take enough memory
  have length : ((bytes.drop cursor.position).take 4).length = 4 := by
    rw [List.length_take, List.length_drop]
    omega
  generalize (bytes.drop cursor.position).take 4 = part at taken length
  obtain ⟨a, b, c, d, rfl⟩ : ∃ a b c d, part = [a, b, c, d] := by
    match part, length with
    | [a, b, c, d], _ => exact ⟨a, b, c, d, rfl⟩
  exact runFrom_bind_of_ok taken

end Runs

/-! ## Scans and readers -/

/-- What a scan and a reader come to from one place in one memory: both are refused
room, or both come to the same, with the same memory left, and the cursor has advanced
to where the reader has. -/
inductive Together {σ α : Type} (bytes : Bytes) (cursor : Cursor) :
    Option ((Except DecodeError α × Cursor) × σ) → Option (Except DecodeError (α × Bytes) × σ) →
      Prop where
  | refused : Together bytes cursor none none
  | come (outcome : Except DecodeError α) {after : Cursor} {left : σ}
      (advances : cursor.Advances bytes after) :
      Together bytes cursor (some ((outcome, after), left))
        (some (outcome.map fun value => (value, bytes.drop after.position), left))

/-- From any cursor with no more than `room` bytes behind it, the scan and the
reader come to the same. -/
def Tracks {σ α : Type} (room : Nat) (scan : Scan σ α)
    (reader : Encoded.Reader (StateT σ Option) α) : Prop :=
  ∀ (bytes : Bytes) (cursor : Cursor) (memory : σ), cursor.Inside bytes →
    bytes.length ≤ cursor.position + room →
    Together bytes cursor (scan.runFrom bytes cursor memory)
      (reader.runIn (bytes.drop cursor.position) memory)

section Composition

variable {σ α β : Type} {room : Nat} {scan : Scan σ α}
  {reader : Encoded.Reader (StateT σ Option) α} {bytes : Bytes} {cursor after : Cursor}
  {memory left : σ}

theorem Together.of_runs {outcome : Except DecodeError α}
    (runs : scan.runFrom bytes cursor memory = some ((outcome, after), left))
    (advances : cursor.Advances bytes after)
    (reads : reader.runIn (bytes.drop cursor.position) memory =
      some (outcome.map fun value => (value, bytes.drop after.position), left)) :
    Together bytes cursor (scan.runFrom bytes cursor memory)
      (reader.runIn (bytes.drop cursor.position) memory) := by
  rw [runs, reads]
  exact .come outcome advances

/-- What begins where another cursor has advanced to. -/
theorem Together.advanced {scanned : Option ((Except DecodeError α × Cursor) × σ)}
    {read : Option (Except DecodeError (α × Bytes) × σ)}
    (together : Together bytes after scanned read)
    (advances : cursor.Advances bytes after) : Together bytes cursor scanned read := by
  cases together with
  | refused => exact .refused
  | come outcome onwards => exact .come outcome (advances.trans onwards)

theorem Tracks.pure (value : α) :
    Tracks room (Pure.pure value : Scan σ α) (Pure.pure value) :=
  fun _ _ _ inside _ => .come (.ok value) (.refl inside)

theorem Tracks.throw (fault : DecodeError) :
    Tracks room (MonadExcept.throw fault : Scan σ α) (MonadExcept.throw fault) :=
  fun _ _ _ inside _ => .come (.error fault) (.refl inside)

theorem Tracks.bind {next : α → Scan σ β} {readNext : α → Encoded.Reader (StateT σ Option) β}
    (tracks : Tracks room scan reader)
    (tracksNext : ∀ value, Tracks room (next value) (readNext value)) :
    Tracks room (scan >>= next) (reader >>= readNext) := by
  intro bytes cursor memory inside near
  have together := tracks bytes cursor memory inside near
  rw [runFrom_bind, Encoded.runIn_bind]
  generalize scan.runFrom bytes cursor memory = scanned at together
  generalize reader.runIn (bytes.drop cursor.position) memory = read at together
  cases together with
  | refused => exact .refused
  | @come outcome between left advances =>
      cases outcome with
      | error fault => exact .come (.error fault) advances
      | ok value =>
          have forward := advances.forward
          have later := tracksNext value bytes between left advances.inside (by omega)
          exact later.advanced advances

/-- A last step that only forms the result leaves the cursor. -/
theorem Tracks.andThen (tracks : Tracks room scan reader) (form : α → β) :
    Tracks room (scan >>= fun value => Pure.pure (form value))
      (reader >>= fun value => Pure.pure (form value)) :=
  tracks.bind fun value => .pure (form value)

/-- Room is refused to both or to none. -/
theorem tracks_reserve (room : Nat) (allocator : Allocator σ) (count : Nat) :
    Tracks room (reserve allocator count) (liftM (allocator count)) := by
  intro bytes cursor memory inside near
  have scans : (reserve allocator count).runFrom bytes cursor memory =
      ((allocator count).run memory).map fun got => ((.ok got.1, cursor), got.2) := by
    change ((ExceptT.lift (StateT.lift (allocator count)) : ExceptT _ _ PUnit).run.run cursor).run
      memory = _
    cases got : (allocator count).run memory <;> simp [got]
  have reads : (liftM (allocator count) : Encoded.Reader (StateT σ Option) Unit).runIn
      (bytes.drop cursor.position) memory =
      ((allocator count).run memory).map fun got =>
        (.ok (got.1, bytes.drop cursor.position), got.2) := by
    change ((liftM (allocator count) : Encoded.Reader (StateT σ Option) PUnit).run _).run.run
      memory = _
    cases got : (allocator count).run memory <;> simp [got, Except.map]
  rw [scans, reads]
  cases (allocator count).run memory with
  | none => exact .refused
  | some got => exact .come (.ok got.1) (.refl inside)

end Composition

/-! ## Lengths, fields and texts -/

section Plain

variable {σ : Type}

theorem tracks_readByte (room : Nat) :
    Tracks room (readByte : Scan σ UInt8) Encoded.readByte := by
  intro bytes cursor memory inside _
  by_cases ends : bytes.drop cursor.position = []
  · exact .of_runs (runFrom_readByte_of_end ends) (.refl inside)
      (Encoded.runIn_readByte_of_end ends)
  · obtain ⟨byte, rest, next⟩ := List.exists_cons_of_ne_nil ends
    exact .of_runs (runFrom_readByte next)
      (inside.advances (Encoded.of_drop_eq_cons next).1 (Nat.le_refl 1))
      (Encoded.runIn_readByte_drop next)

theorem tracks_readLength (room : Nat) :
    Tracks room (readLength : Scan σ Nat) Encoded.readLength := by
  intro bytes cursor memory inside _
  rcases Nat.lt_or_ge bytes.length (cursor.position + 4) with short | enough
  · exact .of_runs (runFrom_readLength_of_lt short) (.refl inside)
      (Encoded.runIn_readLength_drop_of_lt inside.within short)
  · exact .of_runs (runFrom_readLength enough memory) (inside.advances enough (by decide))
      (Encoded.runIn_readLength_drop enough memory)

/-- A field takes two slices, but its length alone is four bytes. -/
theorem tracks_readField (room : Nat) :
    Tracks room (readField : Scan σ Bytes) Encoded.readField := by
  intro bytes cursor memory inside _
  rcases Nat.lt_or_ge bytes.length (cursor.position + 4) with short | counted
  · exact .of_runs (runFrom_bind_of_error (runFrom_readLength_of_lt short)) (.refl inside)
      (Encoded.runIn_bind_of_error (Encoded.runIn_readLength_drop_of_lt inside.within short))
  · have scans := runFrom_readLength counted memory
    have reads := Encoded.runIn_readLength_drop counted memory
    generalize Bytes.toNat ((bytes.drop cursor.position).take 4) = length at scans reads
    have counting := inside.advances counted (by decide)
    rcases Nat.lt_or_ge bytes.length (cursor.position + 4 + length) with short | enough
    · exact .of_runs ((runFrom_bind_of_ok scans).trans (runFrom_take_of_lt short)) counting
        ((Encoded.runIn_bind_of_ok reads).trans
          (Encoded.runIn_readBytes_drop_of_lt counting.inside.within short))
    · refine .of_runs ((runFrom_bind_of_ok scans).trans (runFrom_take enough memory)) ?_
        ((Encoded.runIn_bind_of_ok reads).trans (Encoded.runIn_readBytes_drop enough))
      refine ⟨counting.inside.moved enough, ?_, ?_⟩
      · simp only [Cursor.moved]
        omega
      · simp only [Cursor.moved, List.length_cons]
        omega

theorem tracks_readText (room : Nat) :
    Tracks room (readText : Scan σ String) Encoded.readText := by
  refine (tracks_readField room).bind fun field => ?_
  cases Utf8.decode field with
  | ok text => exact .pure text
  | error fault => exact .throw _

end Plain

section Counted

variable {σ α : Type} {room : Nat} {readOne : Scan σ α}
  {reader : Encoded.Reader (StateT σ Option) α}

/-- A part that fails ends the row. -/
theorem Tracks.readMany (tracks : Tracks room readOne reader) (count : Nat) :
    Tracks room (readMany readOne count) (Encoded.readMany reader count) := by
  induction count with
  | zero => exact .pure []
  | succ count ih => exact tracks.bind fun first => ih.andThen (first :: ·)

theorem Tracks.readCounted (tracks : Tracks room readOne reader) :
    Tracks room (readCounted readOne) (Encoded.readCounted reader) :=
  (tracks_readLength room).bind tracks.readMany

theorem Tracks.readReserved (tracks : Tracks room readOne reader) (allocator : Allocator σ) :
    Tracks room (readReserved allocator readOne) (Encoded.readReserved allocator reader) :=
  (tracks_readLength room).bind fun count =>
    (tracks_reserve room allocator count).bind fun _ => tracks.readMany count

end Counted

/-! ## Trees -/

section Trees

variable {σ : Type} {room : Nat} {readValue : Scan σ Encoded}
  {reader : Encoded.Reader (StateT σ Option) Encoded} {allocator : Allocator σ}

theorem Tracks.readEntry (tracks : Tracks room readValue reader) :
    Tracks room (readEntry readValue) (Encoded.readEntry reader) :=
  (tracks_readText room).bind fun name => tracks.andThen (name, ·)

theorem Tracks.readPayload (tracks : Tracks room readValue reader) (tag : Tag) :
    Tracks room (readPayload allocator readValue tag)
      (Encoded.readPayload allocator reader tag) := by
  have text : Tracks room (readText : Scan σ String) Encoded.readText := tracks_readText room
  have field : Tracks room (readField : Scan σ Bytes) Encoded.readField := tracks_readField room
  cases tag with
  | string => exact text.andThen Encoded.string
  | number => exact text.andThen Encoded.number
  | binary => exact field.andThen Encoded.binary
  | stringSet => exact text.readCounted.andThen Encoded.stringSet
  | numberSet => exact text.readCounted.andThen Encoded.numberSet
  | binarySet => exact field.readCounted.andThen Encoded.binarySet
  | map => exact (tracks.readEntry.readReserved allocator).andThen Encoded.map
  | list => exact tracks.readCounted.andThen Encoded.list
  | null => exact .pure Encoded.null
  | bool => exact (tracks_readByte room).andThen Encoded.bool

/-- A depth above the number of bytes is never used up: the tag of a value is a byte, and what is
inside the value is read behind it. -/
theorem tracks_readWithin {depth bound : Nat} (deep : room < depth) (le : room ≤ bound) :
    Tracks room (readWithin allocator depth) (Encoded.readWithin allocator bound) := by
  induction depth generalizing room bound with
  | zero => exact absurd deep (Nat.not_lt_zero _)
  | succ depth ih =>
      intro bytes cursor memory inside near
      by_cases ends : bytes.drop cursor.position = []
      · refine .of_runs (runFrom_bind_of_error (runFrom_readByte_of_end ends)) (.refl inside) ?_
        cases bound with
        | zero => rfl
        | succ bound => exact Encoded.runIn_bind_of_error (Encoded.runIn_readByte_of_end ends)
      · obtain ⟨byte, rest, next⟩ := List.exists_cons_of_ne_nil ends
        have enough := (Encoded.of_drop_eq_cons next).1
        have tagged := inside.advances enough (Nat.le_refl 1)
        -- There is a byte, so there is room, and behind the tag there is less of it.
        obtain ⟨room, rfl⟩ := Nat.exists_eq_add_one_of_ne_zero (show room ≠ 0 by omega)
        obtain ⟨bound, rfl⟩ := Nat.exists_eq_add_one_of_ne_zero (show bound ≠ 0 by omega)
        have nested :
            Tracks room (readWithin allocator depth) (Encoded.readWithin allocator bound) :=
          ih (Nat.lt_of_succ_lt_succ deep) (Nat.le_of_succ_le_succ le)
        have near : bytes.length ≤ (cursor.moved 1).position + room := by
          simp only [Cursor.moved]
          omega
        rw [readWithin, Encoded.readWithin, runFrom_bind_of_ok (runFrom_readByte next),
          Encoded.runIn_bind_of_ok (Encoded.runIn_readByte_drop next)]
        cases Tag.ofByte? byte with
        | some tag =>
            exact (nested.readPayload tag bytes _ memory tagged.inside near).advanced tagged
        | none => exact (Tracks.throw _ bytes _ memory tagged.inside near).advanced tagged

/-- Scanning a whole byte string to any depth above its length comes to
what reading it comes to. -/
theorem runFrom_deserialize {bytes : Bytes} {depth : Nat} (deep : bytes.length < depth)
    (memory : σ) :
    ((deserialize allocator depth).runFrom bytes {} memory = none ∧
        (AttributeValue.deserializeIn allocator bytes).run memory = none) ∨
      ∃ outcome cursor left,
        (deserialize allocator depth).runFrom bytes {} memory = some ((outcome, cursor), left) ∧
          (AttributeValue.deserializeIn allocator bytes).run memory = some (outcome, left) ∧
          Cursor.Advances bytes {} cursor := by
  have tracks : Tracks bytes.length (readWithin allocator depth)
      (Encoded.readWithin allocator bytes.length) := tracks_readWithin deep (Nat.le_refl _)
  have together := tracks bytes {} memory (Cursor.inside_start bytes) (Nat.le_add_left _ _)
  have reads : (AttributeValue.deserializeIn allocator bytes).run memory =
      ((Encoded.readWithin allocator bytes.length).runIn bytes memory).map fun come =>
        ((come.1 >>= Encoded.whole).map Encoded.value, come.2) := by
    change (((Encoded.readWithin allocator bytes.length).runIn bytes memory).bind _).bind _ = _
    cases (Encoded.readWithin allocator bytes.length).runIn bytes memory <;> rfl
  rw [deserialize, runFrom_bind, reads]
  generalize (readWithin allocator depth).runFrom bytes {} memory = scanned at together
  rw [List.drop_zero] at together
  generalize (Encoded.readWithin allocator bytes.length).runIn bytes memory = read at together
  cases together with
  | refused => exact .inl ⟨rfl, rfl⟩
  | @come outcome cursor left advances =>
      cases outcome with
      | error fault => exact .inr ⟨_, cursor, left, rfl, rfl, advances⟩
      | ok tree =>
          refine .inr ⟨_, cursor, left, ?_, rfl, advances⟩
          change runFrom (if _ then _ else _) bytes cursor left =
            some ((Except.map _ (if _ then _ else _), cursor), left)
          have within := advances.inside.within
          by_cases ends : cursor.position = bytes.length
          · have done : bytes.drop cursor.position = [] :=
              List.drop_eq_nil_iff.2 (Nat.le_of_eq ends.symm)
            rw [if_pos ends, if_pos done]
            rfl
          · have more : bytes.drop cursor.position ≠ [] := by
              rw [ne_eq, List.drop_eq_nil_iff]
              omega
            rw [if_neg ends, if_neg more, List.length_drop]
            rfl

end Trees

end Scan

end ItemSeal
