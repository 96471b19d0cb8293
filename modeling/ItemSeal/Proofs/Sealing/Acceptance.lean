import ItemSeal.Proofs.Codec.KnownValues
import ItemSeal.Proofs.Sealing.Directions
import ItemSeal.Proofs.Sealing.Unsigned
import ItemSeal.Proofs.Signing.CoveredItems

/-!
Which items are sealed. An item that has a reserved name or lacks a key is refused, and one of
which nothing is protected stays as it is, before any keys are asked for. Else, under fixed keys,
an item is sealed exactly if every value that is to be written is of known types throughout: the
attributes that are not left alone and the values in the context (`Item.exists_sealUnder_iff`).
`Item.sealWith_decided` is the whole decision.
-/

namespace ItemSeal

namespace AttributeValue

/-- If the value can be written, its bytes are so few that they can be written again
once they are encrypted. -/
def Compact (value : AttributeValue) : Prop :=
  ∀ tree, value.encoded = .ok tree → tree.write.length < 2 ^ 32 - 28

theorem Compact.exists_serialize {value : AttributeValue} (compact : value.Compact)
    (known : .unknown ∉ value.parts) :
    ∃ bytes, value.serialize = .ok bytes := by
  refine exists_serialize_of_known (fun tree encodes => ?_) known
  have short := compact tree encodes
  rw [Encoded.lengthBound]
  omega

end AttributeValue

namespace Item

/-! ## Hidden items -/

/-- A value is hidden exactly if it can be written. -/
theorem exists_hide_iff {key : Key} {nonce : Nonce} {name : String} {value : AttributeValue} :
    (∃ hidden, hide key nonce name value = .ok hidden) ↔
      ∃ bytes, value.serialize = .ok bytes := by
  constructor
  · intro ⟨hidden, hides⟩
    obtain ⟨plain, written, -⟩ := Except.bind_eq_ok_iff.1 hides
    exact ⟨plain, Except.mapError_eq_ok_iff.1 written⟩
  · intro ⟨plain, written⟩
    exact ⟨_, Except.bind_eq_ok_iff.2 ⟨plain, Except.mapError_eq_ok_iff.2 written, rfl⟩⟩

/-- What a compact value is hidden as can be signed. -/
theorem exists_serializeCanonical_of_hide {key : Key} {nonce : Nonce} {name : String}
    {value hidden : AttributeValue} (compact : value.Compact)
    (hides : hide key nonce name value = .ok hidden) :
    ∃ bytes, hidden.serializeCanonical = .ok bytes := by
  obtain ⟨plain, bytes, written, rfl, length⟩ := length_of_hide hides
  obtain ⟨tree, encodes, -, rfl⟩ := AttributeValue.serialize_eq_ok_iff.1 written
  have room := compact tree encodes
  rw [AttributeValue.exists_serializeCanonical_binary_iff, Encoded.lengthBound]
  omega

section Hidden

variable {policy : ActionPolicy} {context : EncryptionContext} {materials : KeyMaterials}
  {nonces : ItemNonces} {item hidden : Item}

/-- The attributes that are to be encrypted are hidden one by one. -/
theorem rel_get?_of_hides {name : String}
    (hides :
      changeEncrypted policy (fun name => hide materials.encryption (nonces.content name) name)
        item = .ok hidden)
    (encrypted : policy.action name = .encryptAndSign) :
    Option.Rel (fun value hiddenValue =>
      hide materials.encryption (nonces.content name) name value = .ok hiddenValue)
      (item.get? name) (hidden.get? name) := by
  have rel := Ascending.get?_mapEntriesM hides name
  simpa only [encrypted, if_true] using rel

/-- The value is written when the item is sealed: as an attribute that is not left
alone, or in the context. -/
def Written (policy : ActionPolicy) (context : EncryptionContext) (item : Item)
    (value : AttributeValue) : Prop :=
  (∃ name, item.get? name = some value ∧ policy.action name ≠ .doNothing) ∨
    ∃ name, context.attributes.get? name = some value

/-- Where the context has no values before an item is bound, only values of the item are
written. -/
theorem Written.mem_values {value : AttributeValue}
    (written : Written policy (context.bind item) item value)
    (unbound : context.attributes = ∅) : value ∈ item.values := by
  have held : ∃ name, item.get? name = some value := by
    rcases written with ⟨name, found, -⟩ | ⟨name, found⟩
    · exact ⟨name, found⟩
    · have unheld : context.attributes.get? name = none := by
        rw [unbound]
        rfl
      rw [EncryptionContext.get?_attributes_bind, unheld, Option.or_none] at found
      split at found
      · exact ⟨name, found⟩
      · cases found
  obtain ⟨name, found⟩ := held
  exact List.mem_map_of_mem (Ascending.mem_toList_iff.2 found)

/-- An item that is sealed is one of which every value that is written is of known types. -/
theorem known_of_sealUnder {sealed : Item}
    (seals : sealUnder policy context materials nonces item = .ok sealed) :
    ∀ value, Written policy context item value → .unknown ∉ value.parts := by
  obtain ⟨hidden, bytes, hides, covers, -⟩ := sealUnder_eq_ok seals
  obtain ⟨entries, attributes⟩ := Coverage.writable_of_bytes (Except.mapError_eq_ok_iff.1 covers)
  intro value written
  apply AttributeValue.known_of_serialize
  rcases written with ⟨name, found, acts⟩ | ⟨name, found⟩
  · by_cases encrypted : policy.action name = .encryptAndSign
    · have rel := rel_get?_of_hides hides encrypted
      generalize hidden.get? name = after at rel
      rw [found] at rel
      cases rel with
      | some hidesValue => exact exists_hide_iff.1 ⟨_, hidesValue⟩
    · rw [← get?_changeEncrypted_of_ne hides encrypted] at found
      have signed := Coverage.mem_signedAttributes found acts
      exact AttributeValue.exists_serializeCanonical_iff.1 (attributes _ signed)
  · have bound := Ascending.mem_toList_iff.2 found
    exact AttributeValue.exists_serializeCanonical_iff.1 (entries _ bound)

/-- Hiding succeeds if every value that is written is of known types, and
then all can be signed. -/
theorem exists_hidden_of_known
    (compact : ∀ value, Written policy context item value → value.Compact)
    (known : ∀ value, Written policy context item value → .unknown ∉ value.parts) :
    ∃ hidden,
      changeEncrypted policy (fun name => hide materials.encryption (nonces.content name) name)
        item = .ok hidden ∧
      (Coverage.ofItem policy { context with description := materials.description }
        hidden).Writable := by
  have writes : ∀ value, Written policy context item value →
      ∃ bytes, value.serialize = .ok bytes :=
    fun value written => (compact value written).exists_serialize (known value written)
  have changes : ∃ hidden,
      changeEncrypted policy (fun name => hide materials.encryption (nonces.content name) name)
        item = .ok hidden := by
    refine Ascending.exists_mapEntriesM_eq_ok_iff.2 fun entry member => ?_
    split
    · next encrypted =>
        have written : Written policy context item entry.2 :=
          .inl ⟨entry.1, Ascending.mem_toList_iff.1 member, by rw [encrypted]; decide⟩
        exact exists_hide_iff.2 (writes _ written)
    · exact ⟨entry.2, rfl⟩
  obtain ⟨hidden, hides⟩ := changes
  refine ⟨hidden, hides, fun entry member => ?_, fun signed member => ?_⟩
  · have written : Written policy context item entry.2 :=
      .inr ⟨entry.1, Ascending.mem_toList_iff.1 member⟩
    exact AttributeValue.exists_serializeCanonical_iff.2 (writes _ written)
  · obtain ⟨acts, notAlone, found⟩ := Coverage.of_mem_signedAttributes member
    rw [acts] at notAlone
    by_cases encrypted : policy.action signed.name = .encryptAndSign
    · have rel := rel_get?_of_hides hides encrypted
      rw [found] at rel
      generalize before : item.get? signed.name = value at rel
      cases rel with
      | some hidesValue =>
          exact exists_serializeCanonical_of_hide
            (compact _ (.inl ⟨_, before, notAlone⟩)) hidesValue
    · rw [get?_changeEncrypted_of_ne hides encrypted] at found
      have written : Written policy context item signed.value := .inl ⟨_, found, notAlone⟩
      exact AttributeValue.exists_serializeCanonical_iff.2 (writes _ written)

/-- With keys at hand, an item is sealed exactly if every value that is
written is of known types. -/
theorem exists_sealUnder_iff
    (compact : ∀ value, Written policy context item value → value.Compact) :
    (∃ sealed, sealUnder policy context materials nonces item = .ok sealed) ↔
      ∀ value, Written policy context item value → .unknown ∉ value.parts := by
  constructor
  · exact fun ⟨sealed, seals⟩ => known_of_sealUnder seals
  · intro known
    obtain ⟨hidden, hides, writable⟩ := exists_hidden_of_known compact known
    have covers :
        covered policy { context with description := materials.description } hidden = .ok _ :=
      Except.mapError_eq_ok_iff.2 (Coverage.bytes_of_writable writable)
    exact ⟨_, Except.bind_eq_ok_iff.2 ⟨hidden, hides, Except.bind_eq_ok_iff.2 ⟨_, covers, rfl⟩⟩⟩

end Hidden

/-! ## Faults -/

section Faults

variable {context : EncryptionContext} {item : Item}

/-- A reserved name is an error of encryption, whatever keys are missing. -/
theorem sealFault?_of_reserved (reserved : ∃ name ∈ item.names, isReserved name = true) :
    ∃ error, sealFault? context item = some error ∧ error.kind = .encryption := by
  obtain ⟨name, found⟩ := Option.isSome_iff_exists.1 (List.find?_isSome.2 reserved)
  refine ⟨.reservedName name, ?_, rfl⟩
  rw [sealFault?, found]

/-- Without reserved names, a key that the item lacks is a missing attribute. -/
theorem sealFault?_of_missing (unreserved : ∀ name ∈ item.names, isReserved name = false)
    (missing : ∃ key ∈ context.keyNames, item.get? key = none) :
    ∃ error, sealFault? context item = some error ∧ error.kind = .missingAttribute := by
  have noReserved : item.names.find? isReserved = none := by
    rw [List.find?_eq_none]
    intro name member
    rw [unreserved name member]
    decide
  have lacks : ∃ key ∈ context.keyNames, (!item.contains key) = true := by
    obtain ⟨key, member, lacking⟩ := missing
    exact ⟨key, member, by rw [Ascending.contains, lacking]; rfl⟩
  obtain ⟨key, found⟩ := Option.isSome_iff_exists.1 (List.find?_isSome.2 lacks)
  refine ⟨.missingKeyAttribute key, ?_, rfl⟩
  rw [sealFault?, noReserved, found]
  rfl

/-- Without either there is no fault. -/
theorem sealFault?_eq_none_of (unreserved : ∀ name ∈ item.names, isReserved name = false)
    (present : ∀ key ∈ context.keyNames, item.get? key ≠ none) :
    sealFault? context item = none := by
  have absent : ∀ {name}, isReserved name = true → item.get? name = none := by
    intro name reserved
    rw [Option.eq_none_iff_forall_ne_some]
    intro value found
    have free := unreserved name (Ascending.mem_names_iff.2 ⟨value, found⟩)
    rw [reserved] at free
    cases free
  refine sealFault?_eq_none_iff.2 ⟨absent rfl, absent rfl, fun key member => ?_⟩
  exact Option.ne_none_iff_exists'.1 (present key member)

end Faults

/-! ## The decision -/

/-- What sealing an item comes to, under every configuration. The first fault decides, a reserved
name before a missing key, and an item of which nothing is protected stays as it is; until then no
keys are asked for, whatever provider there is. Then, with fixed keys, the item is sealed exactly
if no value that is written has a part of an unknown type, the values being of a size that can be
written at all, and else that is an error of encryption. A side condition is that the cipher takes
what it is given, at most `2 ^ 36` bytes at once (`Gcm.encrypt`): values of that size are always
short enough, and the bytes to be signed are unless all values together are longer. -/
theorem sealWith_decided (keys : RawKeys) (context : EncryptionContext) (policy : ActionPolicy)
    (nonces : ItemNonces) (item : Item) :
    ((∃ name ∈ item.names, isReserved name = true) →
      ∃ error, error.kind = .encryption ∧ ∀ {σ : Type} (provider : MaterialsProvider σ)
        (world : σ),
        (sealWith ⟨provider, context, policy⟩ nonces item).runFrom world =
          (.error error, world)) ∧
    ((∀ name ∈ item.names, isReserved name = false) →
      (∃ key ∈ context.keyNames, item.get? key = none) →
      ∃ error, error.kind = .missingAttribute ∧
        ∀ {σ : Type} (provider : MaterialsProvider σ) (world : σ),
        (sealWith ⟨provider, context, policy⟩ nonces item).runFrom world =
          (.error error, world)) ∧
    ((∀ name ∈ item.names, isReserved name = false) →
      (∀ key ∈ context.keyNames, item.get? key ≠ none) →
      ((∀ name, policy.action name = .doNothing) →
        ∀ {σ : Type} (provider : MaterialsProvider σ) (world : σ),
        (sealWith ⟨provider, context, policy⟩ nonces item).runFrom world = (.ok item, world)) ∧
      ((∃ name, policy.action name ≠ .doNothing) →
        (∀ value, Written policy (context.bind item) item value → value.Compact) →
        ∃ outcome,
          (∀ {σ : Type} (world : σ),
            (sealWith ⟨.ofKeys keys, context, policy⟩ nonces item).runFrom world =
              (outcome, world)) ∧
          ((∃ sealed, outcome = .ok sealed) ↔
            ∀ value, Written policy (context.bind item) item value → .unknown ∉ value.parts) ∧
          ∀ error, outcome = .error error → error.kind = .encryption)) := by
  have refused : ∀ error, sealFault? context item = some error →
      ∀ {σ : Type} (provider : MaterialsProvider σ) (world : σ),
        (sealWith ⟨provider, context, policy⟩ nonces item).runFrom world =
          (.error error, world) := by
    intro error fault σ provider world
    rw [sealWith, fault]
    rfl
  refine ⟨fun reserved => ?_, fun unreserved missing => ?_,
    fun unreserved present => ⟨fun alone => ?_, ?_⟩⟩
  · obtain ⟨error, fault, kind⟩ := sealFault?_of_reserved reserved
    exact ⟨error, kind, refused error fault⟩
  · obtain ⟨error, fault, kind⟩ := sealFault?_of_missing unreserved missing
    exact ⟨error, kind, refused error fault⟩
  · intro σ provider world
    have fault := sealFault?_eq_none_of unreserved present
    have nothing := ActionPolicy.protectsNothing_iff.2 alone
    simp only [sealWith, fault, nothing, if_true]
    rfl
  · intro acts compact
    have fault := sealFault?_eq_none_of unreserved present
    have protects := ActionPolicy.protectsNothing_eq_false_iff.2 acts
    refine ⟨sealUnder policy (context.bind item) keys.materials nonces item, fun world => ?_,
      exists_sealUnder_iff compact, fun error fails => ?_⟩
    · rw [runFrom_sealWith fault protects]
      rfl
    · exact kind_of_sealUnder ⟨error, fails, rfl⟩

namespace SampleOrder

/-- An order with a remark of an unknown type. -/
def remarked : Item :=
  NameMap.ofList [("OrderId", .string "1"), ("Remark", .unknown)]

def remarkPolicy (action : Action) : ActionPolicy :=
  { fallback := .signOnly, explicit := NameMap.singleton "Remark" action }

theorem eq_of_written_remarked {action : Action} {value : AttributeValue}
    (written : Written (remarkPolicy action)
      ((EncryptionContext.ofSchema schema).bind remarked) remarked value) :
    value = .string "1" ∨ value = .unknown ∧ action ≠ .doNothing := by
  have entries : remarked.toList = [("OrderId", .string "1"), ("Remark", .unknown)] := rfl
  have bound : ((EncryptionContext.ofSchema schema).bind remarked).attributes.toList =
      [("OrderId", .string "1")] := rfl
  rcases written with ⟨name, found, acts⟩ | ⟨name, found⟩
  · have member := Ascending.mem_toList_iff.2 found
    rw [entries, List.mem_pair] at member
    rcases member with here | here <;> cases here
    · exact .inl rfl
    · exact .inr ⟨rfl, acts⟩
  · have member := Ascending.mem_toList_iff.2 found
    rw [bound, List.mem_singleton] at member
    cases member
    exact .inl rfl

end SampleOrder

open SampleOrder in
/-- The remark is no obstacle where it is left alone, and is one where it is signed. -/
theorem sealWith_remarked :
    (∃ sealed,
      (sealWith ⟨.ofKeys keys, .ofSchema schema, remarkPolicy .doNothing⟩ nonces
        remarked).runFrom () = (.ok sealed, ())) ∧
    ∃ error,
      (sealWith ⟨.ofKeys keys, .ofSchema schema, remarkPolicy .signOnly⟩ nonces
        remarked).runFrom () = (.error error, ()) ∧ error.kind = .encryption := by
  have decided := fun action =>
    (sealWith_decided keys (.ofSchema schema) (remarkPolicy action) nonces remarked).2.2
      (by decide) (by decide)
  have compact : ∀ action value,
      Written (remarkPolicy action)
        ((EncryptionContext.ofSchema schema).bind remarked) remarked value →
      value.Compact := by
    intro action value written tree encodes
    rcases eq_of_written_remarked written with rfl | ⟨rfl, -⟩ <;> cases encodes
    decide
  obtain ⟨left, runsLeft, accepts, -⟩ := (decided .doNothing).2 ⟨"OrderId", by decide⟩ (compact _)
  obtain ⟨signed, runsSigned, rejects, kind⟩ :=
    (decided .signOnly).2 ⟨"OrderId", by decide⟩ (compact _)
  constructor
  · obtain ⟨sealed, rfl⟩ := accepts.2 fun value written => by
      rcases eq_of_written_remarked written with rfl | ⟨-, acts⟩
      · decide
      · exact (acts rfl).elim
    exact ⟨sealed, runsLeft ()⟩
  · cases signed with
    | ok sealed =>
        have known := rejects.1 ⟨sealed, rfl⟩ .unknown (.inl ⟨"Remark", rfl, by decide⟩)
        exact (known (by decide)).elim
    | error error => exact ⟨error, runsSigned (), kind error rfl⟩

end Item

end ItemSeal
