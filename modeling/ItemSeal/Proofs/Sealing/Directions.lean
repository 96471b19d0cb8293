import ItemSeal.Proofs.KeyService.DataKeys
import ItemSeal.Proofs.Sealing.RoundTrip
import ItemSeal.Proofs.Signing.Segments

/-!
Which way errors point. Both ways through a seal use the same codec, the same bytes under the
signature and the same codes of the key service, and most of their errors tell which way it was:
`Item.failsAs_direction` names the two that do not. A key service that refuses to make a key with
a code for a wrapped one has its refusal reported as a failed decryption, and a value without a
written form, found under a signature, as a failed encryption.
-/

namespace Except

open ItemSeal (Error ErrorKind)

variable {ε α β : Type}

/-- The outcome is an error of that kind. -/
def FailsAs (outcome : Except Error α) (kind : ErrorKind) : Prop :=
  ∃ error, outcome = .error error ∧ error.kind = kind

variable {kind : ErrorKind}

@[simp] theorem failsAs_ok {a : α} : ¬ (Except.ok a : Except Error α).FailsAs kind :=
  fun ⟨_, fails, _⟩ => by cases fails

@[simp] theorem failsAs_error {error : Error} :
    (Except.error error : Except Error α).FailsAs kind ↔ error.kind = kind := by
  simp [FailsAs]

theorem failsAs_mapError_iff {outcome : Except ε α} {report : ε → Error} :
    (outcome.mapError report).FailsAs kind ↔ ∃ failure, outcome = .error failure ∧
      (report failure).kind = kind := by
  cases outcome with
  | error failure =>
      change (Except.error (report failure) : Except Error α).FailsAs kind ↔ _
      simp
  | ok a =>
      change (Except.ok a : Except Error α).FailsAs kind ↔ _
      simp

/-- Two steps fail in either. -/
theorem failsAs_bind_iff {first : Except Error α} {next : α → Except Error β} :
    (first >>= next).FailsAs kind ↔ first.FailsAs kind ∨
      ∃ a, first = .ok a ∧ (next a).FailsAs kind := by
  cases first with
  | error failure =>
      change (Except.error failure : Except Error β).FailsAs kind ↔ _
      simp
  | ok a =>
      change (next a).FailsAs kind ↔ _
      simp

end Except

namespace ItemSeal

/-! ## Refusals of the key service -/

/-- The service refuses with a code for a wrapped data key that is not its own. -/
def ServiceFailure.BlamesWrappedKey : ServiceFailure → Prop
  | .refused refusal =>
      refusal.code = some "InvalidCiphertextException" ∨
        refusal.code = some "IncorrectKeyException"
  | _ => False

/-- The kind of error that a key service's own codes are, by what it was asked for. -/
def KeyUse.kind : KeyUse → ErrorKind
  | .encrypting => .encryption
  | .decrypting => .decryption

/-- The kinds of error of a service that is not reached, or not usable. -/
def ErrorKind.ofService : List ErrorKind :=
  [.throughput, .accessDenied, .credentials, .connection, .service]

namespace ServiceFailure

variable {use : KeyUse} {refusal : Refusal}

theorem kind_commonError {service : Service} {error : Error}
    (common : commonError? service refusal = some error) :
    error.kind ∈ ErrorKind.ofService := by
  unfold commonError? at common
  split at common <;> cases common <;> simp [Error.kind, ErrorKind.ofService]

/-- The codes that blame a wrapped key are not common to all services. -/
theorem commonError?_of_blames (blames : (refused refusal).BlamesWrappedKey) (service : Service) :
    commonError? service refusal = none := by
  rcases blames with code | code <;> simp [commonError?, code]

theorem kind_keyRefusal_of_blames (blames : (refused refusal).BlamesWrappedKey) (use : KeyUse) :
    (keyRefusal use refusal).kind = .decryption := by
  rcases blames with code | code <;> simp [keyRefusal, code, Error.kind]

theorem kind_keyRefusal (other : ¬ (refused refusal).BlamesWrappedKey) (use : KeyUse) :
    (keyRefusal use refusal).kind = use.kind := by
  unfold keyRefusal
  split
  -- The two codes whose error does not depend on the use.
  case h_5 code => exact absurd (.inl code) other
  case h_6 code => exact absurd (.inr code) other
  all_goals cases use <;> rfl

/-- If the refusal blames a wrapped key, the error is a failed decryption
whatever was asked for. -/
theorem kind_keyError_of_blames {failure : ServiceFailure} (blames : failure.BlamesWrappedKey)
    (use : KeyUse) :
    (failure.keyError use).kind = .decryption := by
  cases failure with
  | refused refusal =>
      unfold keyError errorBy
      dsimp only
      rw [commonError?_of_blames blames, Option.getD_none, kind_keyRefusal_of_blames blames]
  | _ => cases blames

/-- Else the error is one of the service, or one of what was asked for. -/
theorem kind_keyError {failure : ServiceFailure} (other : ¬ failure.BlamesWrappedKey)
    (use : KeyUse) :
    (failure.keyError use).kind = use.kind ∨
      (failure.keyError use).kind ∈ ErrorKind.ofService := by
  unfold keyError errorBy
  cases failure with
  | unbuilt reason =>
      unfold unbuiltError
      dsimp only
      split <;> simp [Error.kind, ErrorKind.ofService]
  | timedOut => simp [Error.kind, ErrorKind.ofService]
  | undelivered fault => cases fault <;> simp [deliveryError, Error.kind, ErrorKind.ofService]
  | unreadable reason => simp [Error.kind, ErrorKind.ofService]
  | refused refusal =>
      dsimp only
      cases common : commonError? .kms refusal with
      | some error => exact .inr (kind_commonError common)
      | none => exact .inl (kind_keyRefusal other use)

end ServiceFailure

/-! ## Where keys come from -/

/-- Where the keys of items come from. -/
inductive KeySource (σ : Type) where
  | fixed (keys : RawKeys)
  | remote (service : KeyService σ) (keyId : KeyId)

namespace KeySource

variable {σ : Type} {source : KeySource σ} {context : EncryptionContext}
  {description : MaterialDescription} {world : σ} {kind : ErrorKind}

/-- The provider of these keys. -/
def provider : KeySource σ → MaterialsProvider σ
  | .fixed keys => .ofKeys keys
  | .remote service keyId => .ofKeyService service keyId

/-- The keys come from a service that refuses to make one with a code that blames a wrapped
key. -/
def BlamesNewKey : KeySource σ → EncryptionContext → σ → Prop
  | .fixed _, _, _ => False
  | .remote service keyId, context, world => ∃ failure,
      ((service.generateDataKey (keyId.newKeyRequest context)).runFrom world).1 = .error failure ∧
        failure.BlamesWrappedKey

theorem kind_of_newMaterials {keyId : KeyId} {dataKey : DataKey}
    (fails : (MaterialsProvider.newMaterials keyId dataKey).FailsAs kind) :
    kind = .encryption := by
  unfold MaterialsProvider.newMaterials at fails
  split at fails
  · exact (Except.failsAs_error.1 fails).symm
  · exact (Except.failsAs_error.1 fails).symm
  · split at fails
    · exact absurd fails Except.failsAs_ok
    · exact (Except.failsAs_error.1 fails).symm

/-- New keys fail in the direction of sealing, or for reasons of the service, unless the
service blames a wrapped key. -/
theorem kind_of_newKeys
    (fails : ((source.provider.encryptionMaterials context).runFrom world).1.FailsAs kind) :
    source.BlamesNewKey context world ∧ kind = .decryption ∨
      kind = .encryption ∨ kind ∈ ErrorKind.ofService := by
  cases source with
  | fixed keys =>
      obtain ⟨error, fails, -⟩ := fails
      cases fails
  | remote service keyId =>
      rw [provider, MaterialsProvider.runFrom_newKeys, Except.failsAs_bind_iff,
        Except.failsAs_mapError_iff] at fails
      rcases fails with ⟨failure, answered, rfl⟩ | ⟨dataKey, -, fails⟩
      · by_cases blames : failure.BlamesWrappedKey
        · exact .inl ⟨⟨failure, answered, blames⟩,
            ServiceFailure.kind_keyError_of_blames blames _⟩
        · exact .inr (ServiceFailure.kind_keyError blames .encrypting)
      · exact .inr (.inl (kind_of_newMaterials fails))

theorem newKeys_failsAs_of_blames (blames : source.BlamesNewKey context world) :
    ((source.provider.encryptionMaterials context).runFrom world).1.FailsAs .decryption := by
  cases source with
  | fixed keys => cases blames
  | remote service keyId =>
      obtain ⟨failure, answered, blames⟩ := blames
      rw [provider, MaterialsProvider.runFrom_newKeys, Except.failsAs_bind_iff,
        Except.failsAs_mapError_iff]
      exact .inl ⟨failure, answered, ServiceFailure.kind_keyError_of_blames blames _⟩

theorem kind_of_wrappedKey (fails : (MaterialsProvider.wrappedKey description).FailsAs kind) :
    kind = .decryption := by
  unfold MaterialsProvider.wrappedKey at fails
  split at fails
  · exact (Except.failsAs_error.1 fails).symm
  · obtain ⟨_, -, same⟩ := Except.failsAs_mapError_iff.1 fails
    exact same.symm

theorem kind_of_oldMaterials {plaintext : Option Bytes}
    (fails : (MaterialsProvider.oldMaterials description plaintext).FailsAs kind) :
    kind = .decryption := by
  unfold MaterialsProvider.oldMaterials at fails
  split at fails
  · exact (Except.failsAs_error.1 fails).symm
  · split at fails
    · exact absurd fails Except.failsAs_ok
    · exact (Except.failsAs_error.1 fails).symm

/-- Keys that are not found again fail in the direction of unsealing, or for
reasons of the service. -/
theorem kind_of_oldKeys
    (fails :
      ((source.provider.decryptionMaterials context description).runFrom world).1.FailsAs kind) :
    kind = .decryption ∨ kind ∈ ErrorKind.ofService := by
  cases source with
  | fixed keys =>
      unfold provider MaterialsProvider.ofKeys at fails
      dsimp only at fails
      split at fails
      · exact absurd fails Except.failsAs_ok
      · exact .inl (Except.failsAs_error.1 fails).symm
  | remote service keyId =>
      rw [provider] at fails
      cases reads : MaterialsProvider.wrappedKey description with
      | error error =>
          rw [MaterialsProvider.runFrom_oldKeys_of_unread reads] at fails
          have unread : (MaterialsProvider.wrappedKey description).FailsAs kind := by
            rw [reads]
            exact Except.failsAs_error.2 (Except.failsAs_error.1 fails)
          exact .inl (kind_of_wrappedKey unread)
      | ok wrapped =>
          rw [MaterialsProvider.runFrom_oldKeys reads, Except.failsAs_bind_iff,
            Except.failsAs_mapError_iff] at fails
          rcases fails with ⟨failure, -, rfl⟩ | ⟨plaintext, -, fails⟩
          · by_cases blames : failure.BlamesWrappedKey
            · exact .inl (ServiceFailure.kind_keyError_of_blames blames _)
            · exact ServiceFailure.kind_keyError blames .decrypting
          · exact .inl (kind_of_oldMaterials fails)

end KeySource

/-! ## Attributes and signatures -/

theorem Ascending.exists_of_mapEntriesM_failsAs {α β : Type} {bound : Option String}
    {map : Ascending α bound} {f : String → α → Except Error β} {kind : ErrorKind}
    (fails : (map.mapEntriesM f).FailsAs kind) :
    ∃ name value, (f name value).FailsAs kind := by
  induction map with
  | nil => exact absurd fails Except.failsAs_ok
  | cons name above value rest ih =>
      rcases Except.failsAs_bind_iff.1 fails with here | ⟨newValue, -, later⟩
      · exact ⟨name, value, here⟩
      · rcases Except.failsAs_bind_iff.1 later with later | ⟨others, -, built⟩
        · exact ih later
        · exact absurd built Except.failsAs_ok

namespace Item

section Parts

variable {policy : ActionPolicy} {context : EncryptionContext} {materials : KeyMaterials}
  {kind : ErrorKind} {item : Item}

theorem exists_of_changeEncrypted_failsAs
    {change : String → AttributeValue → Except Error AttributeValue}
    (fails : (changeEncrypted policy change item).FailsAs kind) :
    ∃ name value, (change name value).FailsAs kind := by
  obtain ⟨name, value, fails⟩ := Ascending.exists_of_mapEntriesM_failsAs fails
  split at fails
  · exact ⟨name, value, fails⟩
  · exact absurd fails Except.failsAs_ok

theorem kind_of_hide {key : Key} {nonce : Nonce} {name : String} {value : AttributeValue}
    (fails : (hide key nonce name value).FailsAs kind) : kind = .encryption := by
  rcases Except.failsAs_bind_iff.1 fails with fails | ⟨plain, -, built⟩
  · obtain ⟨_, -, same⟩ := Except.failsAs_mapError_iff.1 fails
    exact same.symm
  · exact absurd built Except.failsAs_ok

theorem kind_of_reveal {key : Key} {name : String} {value : AttributeValue}
    (fails : (reveal key name value).FailsAs kind) : kind = .decryption := by
  unfold reveal at fails
  split at fails
  · split at fails
    · exact (Except.failsAs_error.1 fails).symm
    · split at fails
      · exact (Except.failsAs_error.1 fails).symm
      · obtain ⟨_, -, same⟩ := Except.failsAs_mapError_iff.1 fails
        exact same.symm
  · exact (Except.failsAs_error.1 fails).symm

/-- What a signature covers has bytes unless some value in it has none, which is reported
as a failed encryption. -/
theorem covered_failsAs_iff :
    (covered policy context item).FailsAs kind ↔
      kind = .encryption ∧ ¬ (Coverage.ofItem policy context item).Writable := by
  unfold covered
  rw [Except.failsAs_mapError_iff]
  constructor
  · rintro ⟨cause, unwritten, rfl⟩
    refine ⟨rfl, fun writable => ?_⟩
    rw [Coverage.bytes_of_writable writable] at unwritten
    cases unwritten
  · rintro ⟨rfl, unwritable⟩
    cases written : (Coverage.ofItem policy context item).bytes with
    | ok bytes => exact absurd (Coverage.writable_of_bytes written) unwritable
    | error cause => exact ⟨cause, rfl, rfl⟩

theorem kind_of_sealUnder {nonces : ItemNonces}
    (fails : (sealUnder policy context materials nonces item).FailsAs kind) :
    kind = .encryption := by
  rcases Except.failsAs_bind_iff.1 fails with fails | ⟨hidden, -, fails⟩
  · obtain ⟨name, value, fails⟩ := exists_of_changeEncrypted_failsAs fails
    exact kind_of_hide fails
  · rcases Except.failsAs_bind_iff.1 fails with fails | ⟨bytes, -, built⟩
    · exact (covered_failsAs_iff.1 fails).1
    · exact absurd built Except.failsAs_ok

theorem split?_eq_cons_iff {signature : Bytes} :
    (∃ nonce first rest, Nonce.split? signature = some (nonce, first :: rest)) ↔
      12 < signature.length := by
  constructor
  · rintro ⟨nonce, first, rest, splits⟩
    unfold Nonce.split? at splits
    split at splits
    · have tail := congrArg (·.map fun parts => parts.2.length) splits
      simp only [Option.map_some, List.length_drop, List.length_cons, Option.some.injEq] at tail
      omega
    · cases splits
  · intro long
    unfold Nonce.split?
    rw [dif_pos (Nat.le_of_lt long)]
    cases tail : signature.drop 12 with
    | nil =>
        have := List.drop_eq_nil_iff.1 tail
        omega
    | cons first rest => exact ⟨_, first, rest, rfl⟩

/-- A signature is missing or does not match, unless it is long enough and there is no
telling what it should cover. -/
theorem kind_of_checkSignature {key : Key} {signature : Bytes}
    (fails : (checkSignature policy context key signature item).FailsAs kind) :
    kind = .integrity ∨
      kind = .encryption ∧ 12 < signature.length ∧
        ¬ (Coverage.ofItem policy context item).Writable := by
  unfold checkSignature at fails
  split at fails
  · exact .inl (Except.failsAs_error.1 fails).symm
  · exact .inl (Except.failsAs_error.1 fails).symm
  · next nonce tag other splits =>
      cases tag with
      | nil => exact (other rfl).elim
      | cons first rest =>
          rcases Except.failsAs_bind_iff.1 fails with unwritten | ⟨bytes, -, verdict⟩
          · obtain ⟨rfl, unwritable⟩ := covered_failsAs_iff.1 unwritten
            exact .inr ⟨rfl, split?_eq_cons_iff.1 ⟨nonce, first, rest, splits⟩, unwritable⟩
          · split at verdict
            · exact absurd verdict Except.failsAs_ok
            · exact .inl (Except.failsAs_error.1 verdict).symm

theorem checkSignature_failsAs_encryption {key : Key} {signature : Bytes}
    (long : 12 < signature.length)
    (unwritable : ¬ (Coverage.ofItem policy context item).Writable) :
    (checkSignature policy context key signature item).FailsAs .encryption := by
  obtain ⟨nonce, first, rest, splits⟩ := split?_eq_cons_iff.2 long
  unfold checkSignature
  rw [splits]
  exact Except.failsAs_bind_iff.2 (.inl (covered_failsAs_iff.2 ⟨rfl, unwritable⟩))

theorem unsealUnder_failsAs {signature : Bytes}
    (fails : (unsealUnder policy context materials signature item).FailsAs kind) :
    kind = .integrity ∨ kind = .decryption ∨
      kind = .encryption ∧ 12 < signature.length ∧
        ¬ (Coverage.ofItem policy context item).Writable := by
  rcases Except.failsAs_bind_iff.1 fails with unchecked | ⟨-, -, hidden⟩
  · rcases kind_of_checkSignature unchecked with integrity | encryption
    · exact .inl integrity
    · exact .inr (.inr encryption)
  · obtain ⟨name, value, fails⟩ := exists_of_changeEncrypted_failsAs hidden
    exact .inr (.inl (kind_of_reveal fails))

/-! ## Whole runs -/

variable {σ : Type} {source : KeySource σ} {world : σ} {nonces : ItemNonces}

theorem kind_of_sealFault {error : Error} (fault : sealFault? context item = some error) :
    error.kind = .encryption ∨ error.kind = .missingAttribute := by
  unfold sealFault? at fault
  split at fault
  · cases fault
    exact .inl rfl
  · obtain ⟨key, -, rfl⟩ := Option.map_eq_some_iff.1 fault
    exact .inr rfl

theorem kind_of_sealWith
    (fails :
      ((sealWith ⟨source.provider, context, policy⟩ nonces item).runFrom world).1.FailsAs kind) :
    (kind = .decryption ∧ sealFault? context item = none ∧ policy.protectsNothing = false ∧
        source.BlamesNewKey (context.bind item) world) ∨
      kind = .encryption ∨ kind = .missingAttribute ∨ kind ∈ ErrorKind.ofService := by
  cases fault : sealFault? context item with
  | some error =>
      unfold sealWith at fails
      rw [fault] at fails
      have same := Except.failsAs_error.1 fails
      rcases kind_of_sealFault fault with encryption | missing
      · exact .inr (.inl (same.symm.trans encryption))
      · exact .inr (.inr (.inl (same.symm.trans missing)))
  | none =>
      cases protects : policy.protectsNothing with
      | true =>
          unfold sealWith at fails
          simp only [fault, protects, if_true] at fails
          exact absurd fails Except.failsAs_ok
      | false =>
          rw [runFrom_sealWith fault protects] at fails
          rcases Except.failsAs_bind_iff.1 fails with noKeys | ⟨materials, -, fails⟩
          · rcases KeySource.kind_of_newKeys noKeys with ⟨blames, decryption⟩ | encryption |
              ofService
            · exact .inl ⟨decryption, rfl, rfl, blames⟩
            · exact .inr (.inl encryption)
            · exact .inr (.inr (.inr ofService))
          · exact .inr (.inl (kind_of_sealUnder fails))

/-- The item has a seal whose keys are found, and a value under its signature
without a written form. -/
def SealCoversUnwritable (source : KeySource σ) (context : EncryptionContext)
    (policy : ActionPolicy) (item : Item) (world : σ) : Prop :=
  ∃ text signature description materials,
    item.get? descriptionName = some (.string text) ∧
    item.get? signatureName = some (.binary signature) ∧
    MaterialDescription.ofText? text = some description ∧
    ((source.provider.decryptionMaterials (context.bind item.withoutSeal) description).runFrom
      world).1 =
      .ok materials ∧
    12 < signature.length ∧
    ¬ (Coverage.ofItem policy { context.bind item.withoutSeal with description }
      item.withoutSeal).Writable

theorem kind_of_unsealWith
    (fails :
      ((unsealWith ⟨source.provider, context, policy⟩ item).runFrom world).1.FailsAs kind) :
    (kind = .encryption ∧ SealCoversUnwritable source context policy item world) ∨
      kind = .integrity ∨ kind = .decryption ∨ kind ∈ ErrorKind.ofService := by
  -- `runFrom_unsealWith` is about items whose seal can be read; the others are
  -- told from the definition.
  have known := fails
  unfold unsealWith at known
  split at known
  · split at known
    · exact absurd known Except.failsAs_ok
    · exact .inr (.inl (Except.failsAs_error.1 known).symm)
  · next text signature described signed =>
      cases reads : MaterialDescription.ofText? text with
      | none =>
          rw [reads] at known
          exact .inr (.inl (Except.failsAs_error.1 known).symm)
      | some description =>
          rw [runFrom_unsealWith described signed reads] at fails
          rcases Except.failsAs_bind_iff.1 fails with noKeys | ⟨materials, found, fails⟩
          · exact .inr (.inr (KeySource.kind_of_oldKeys noKeys))
          · rcases unsealUnder_failsAs fails with integrity | decryption |
              ⟨encryption, long, unwritable⟩
            · exact .inr (.inl integrity)
            · exact .inr (.inr (.inl decryption))
            · exact .inl ⟨encryption, text, signature, description, materials, described, signed,
                reads, found, long, unwritable⟩
  · exact .inr (.inl (Except.failsAs_error.1 known).symm)

/-- Errors tell whether an item was being sealed or unsealed, but for two cases, of any fixed keys
and any key service. Sealing never fails as an integrity check does, and it fails as decryption
does exactly if the key service blames a wrapped key when it is asked for a new one. Unsealing
never fails for a missing attribute, and it fails as encryption does exactly if the keys are there
but a value under the signature has no written form. -/
theorem failsAs_direction (source : KeySource σ) (context : EncryptionContext)
    (policy : ActionPolicy) (item : Item) (world : σ) :
    (∀ nonces,
      ¬ ((sealWith ⟨source.provider, context, policy⟩ nonces item).runFrom world).1.FailsAs
        .integrity ∧
      (((sealWith ⟨source.provider, context, policy⟩ nonces item).runFrom world).1.FailsAs
        .decryption ↔
        sealFault? context item = none ∧ policy.protectsNothing = false ∧
          source.BlamesNewKey (context.bind item) world)) ∧
    ¬ ((unsealWith ⟨source.provider, context, policy⟩ item).runFrom world).1.FailsAs
      .missingAttribute ∧
    (((unsealWith ⟨source.provider, context, policy⟩ item).runFrom world).1.FailsAs .encryption ↔
      SealCoversUnwritable source context policy item world) := by
  refine ⟨fun nonces => ⟨?_, ?_, ?_⟩, ?_, ?_, ?_⟩
  · intro fails
    have kinds := kind_of_sealWith fails
    simp [ErrorKind.ofService] at kinds
  · intro fails
    simpa [ErrorKind.ofService] using kind_of_sealWith fails
  · intro ⟨fault, protects, blames⟩
    rw [runFrom_sealWith fault protects]
    exact Except.failsAs_bind_iff.2 (.inl (KeySource.newKeys_failsAs_of_blames blames))
  · intro fails
    have kinds := kind_of_unsealWith fails
    simp [ErrorKind.ofService] at kinds
  · intro fails
    simpa [ErrorKind.ofService] using kind_of_unsealWith fails
  · intro ⟨text, signature, description, materials, described, signed, reads, found, long,
      unwritable⟩
    rw [runFrom_unsealWith described signed reads]
    refine Except.failsAs_bind_iff.2 (.inr ⟨materials, found, ?_⟩)
    exact Except.failsAs_bind_iff.2 (.inl (checkSignature_failsAs_encryption long unwritable))

end Parts

namespace SampleOrder

-- A service that takes every request for one to unwrap a broken key.
def refusingService : KeyService Unit where
  generateDataKey _ := throw (.refused { code := some "InvalidCiphertextException" })
  decrypt _ := throw (.refused { code := some "InvalidCiphertextException" })

-- An order with a seal, its status being of a type that has no written form.
def unwritableOrder : Item :=
  NameMap.ofList [("OrderId", .string "1"), ("Status", .unknown),
    (descriptionName, .string MaterialDescription.raw.text),
      (signatureName, .binary (List.replicate 13 0))]

end SampleOrder

open SampleOrder in
theorem failsAs_direction_sampleOrder :
    ((sealWith ⟨KeySource.provider (.remote refusingService ⟨"alias/orders", rfl⟩),
      .ofSchema schema, policy⟩ nonces order).runFrom ()).1.FailsAs .decryption ∧
    ((unsealWith ⟨KeySource.provider (.fixed keys),
      .ofSchema schema, policy⟩ unwritableOrder).runFrom ()).1.FailsAs .encryption := by
  obtain ⟨sealing, -⟩ :=
    failsAs_direction (.remote refusingService ⟨"alias/orders", rfl⟩)
      (.ofSchema schema) policy order ()
  obtain ⟨-, -, unsealing⟩ :=
    failsAs_direction (.fixed keys) (.ofSchema schema) policy unwritableOrder ()
  have refused : (KeySource.remote refusingService ⟨"alias/orders", rfl⟩).BlamesNewKey
      ((EncryptionContext.ofSchema schema).bind order) () := ⟨_, rfl, .inl rfl⟩
  refine ⟨(sealing nonces).2.2 ⟨rfl, rfl, refused⟩, unsealing.2 ?_⟩
  refine ⟨MaterialDescription.raw.text, List.replicate 13 0, .raw, keys.materials, rfl, rfl,
    MaterialDescription.ofText?_text .raw, rfl, by decide, ?_⟩
  intro writable
  obtain ⟨bytes, written⟩ := writable.2 ⟨"Status", .signOnly, .unknown⟩ (by decide)
  cases written

end Item

end ItemSeal
