import ItemSeal.Proofs.Sealing.Acceptance

/-!
The shape of a sealed item. `Item.SealedAs` says all that a sealed item shows: its names, the
values that are not encrypted, how many bytes the others and the signature have, and the
description of the keys. Items that agree in what is shown are sealed alike, or not at all:
`Item.SameBut` compares two items except under some names, and `Item.shape_of_sealed` says that
sealed items then differ in nothing but the bytes of what is encrypted and of the signature.
-/

namespace ItemSeal

/-! ## Values -/

namespace AttributeValue

/-- The values are written as equally many bytes. -/
def SameLength (left right : AttributeValue) : Prop :=
  ∃ leftBytes rightBytes, left.serialize = .ok leftBytes ∧ right.serialize = .ok rightBytes ∧
    leftBytes.length = rightBytes.length

/-- The values are equally many bytes. -/
def SameSize (left right : AttributeValue) : Prop :=
  ∃ leftBytes rightBytes, left = .binary leftBytes ∧ right = .binary rightBytes ∧
    leftBytes.length = rightBytes.length

/-- Bytes can be written if as many others can. -/
theorem SameSize.exists_serializeCanonical {left right : AttributeValue}
    (same : left.SameSize right) (written : ∃ bytes, left.serializeCanonical = .ok bytes) :
    ∃ bytes, right.serializeCanonical = .ok bytes := by
  obtain ⟨leftBytes, rightBytes, rfl, rfl, lengths⟩ := same
  rw [exists_serializeCanonical_binary_iff, ← lengths]
  exact exists_serializeCanonical_binary_iff.1 written

theorem SameLength.exists_serializeCanonical {left right : AttributeValue}
    (same : left.SameLength right) :
    ∃ bytes, right.serializeCanonical = .ok bytes := by
  obtain ⟨leftBytes, rightBytes, -, written, -⟩ := same
  exact exists_serializeCanonical_iff.2 ⟨rightBytes, written⟩

end AttributeValue

namespace Item

/-! ## Items that differ under some names -/

/-- The items have the same values, but that under some names the values are
related in another way. -/
def SameBut (under : String → Prop) (related : AttributeValue → AttributeValue → Prop)
    (left right : Item) : Prop :=
  ∀ name, (under name → Option.Rel related (left.get? name) (right.get? name)) ∧
    (¬ under name → left.get? name = right.get? name)

section SameBut

variable {under : String → Prop} {related : AttributeValue → AttributeValue → Prop}
  {left right : Item}

theorem SameBut.get?_eq_none_iff (same : SameBut under related left right) {name : String} :
    left.get? name = none ↔ right.get? name = none := by
  by_cases here : under name
  · have rel := (same name).1 here
    generalize left.get? name = before, right.get? name = after at rel
    cases rel <;> simp
  · rw [(same name).2 here]

/-- A value of the second item is the first one's, or related to it. -/
theorem SameBut.of_get? (same : SameBut under related left right) {name : String}
    {value : AttributeValue} (found : right.get? name = some value) :
    ∃ before, left.get? name = some before ∧
      (under name ∧ related before value ∨ ¬ under name ∧ before = value) := by
  by_cases here : under name
  · have rel := (same name).1 here
    rw [found] at rel
    generalize before : left.get? name = value? at rel
    cases rel with
    | some holds => exact ⟨_, rfl, .inl ⟨here, holds⟩⟩
  · exact ⟨value, ((same name).2 here).trans found, .inr ⟨here, rfl⟩⟩

/-- So is a value that the second item is bound to. -/
theorem SameBut.of_bind (same : SameBut under related left right) {context : EncryptionContext}
    {name : String} {value : AttributeValue}
    (found : (context.bind right).attributes.get? name = some value) :
    ∃ before, (context.bind left).attributes.get? name = some before ∧
      (under name ∧ related before value ∨ before = value) := by
  rw [EncryptionContext.get?_attributes_bind] at found ⊢
  by_cases isKey : name ∈ context.keyNames
  · rw [if_pos isKey] at found ⊢
    cases here : right.get? name with
    | none =>
        rw [here] at found
        rw [same.get?_eq_none_iff.2 here]
        exact ⟨value, found, .inr rfl⟩
    | some held =>
        rw [here] at found
        cases found
        obtain ⟨before, there, ⟨inside, holds⟩ | ⟨-, rfl⟩⟩ := same.of_get? here
        · exact ⟨before, by rw [there]; rfl, .inl ⟨inside, holds⟩⟩
        · exact ⟨before, by rw [there]; rfl, .inr rfl⟩
  · rw [if_neg isKey] at found ⊢
    exact ⟨value, found, .inr rfl⟩

end SameBut

/-- The policy has the name's value encrypted. -/
def Encrypts (policy : ActionPolicy) (name : String) : Prop :=
  policy.action name = .encryptAndSign

/-- In a sealed item, the name holds a ciphertext or the signature. -/
def Concealed (policy : ActionPolicy) (name : String) : Prop :=
  name = signatureName ∨ isReserved name = false ∧ Encrypts policy name

/-! ## Two items -/

/-- Values of one length are hidden in one number of bytes, whatever the keys are. -/
theorem sameSize_of_hide {key otherKey : Key} {nonce otherNonce : Nonce} {name : String}
    {left right hidden otherHidden : AttributeValue} (lengths : left.SameLength right)
    (hides : hide key nonce name left = .ok hidden)
    (hidesOther : hide otherKey otherNonce name right = .ok otherHidden) :
    hidden.SameSize otherHidden := by
  obtain ⟨plain, otherPlain, written, otherWritten, same⟩ := lengths
  obtain ⟨plain', bytes, written', rfl, length⟩ := length_of_hide hides
  obtain ⟨otherPlain', otherBytes, otherWritten', rfl, otherLength⟩ := length_of_hide hidesOther
  cases written.symm.trans written'
  cases otherWritten.symm.trans otherWritten'
  exact ⟨bytes, otherBytes, rfl, rfl, by omega⟩

section Pairs

variable {policy : ActionPolicy} {context : EncryptionContext}
  {materials otherMaterials : KeyMaterials} {nonces otherNonces : ItemNonces}
  {item other hidden otherHidden : Item}

/-- Items that agree but for encrypted values of one length are hidden in one number of bytes. -/
theorem sameBut_of_hides (same : SameBut (Encrypts policy) AttributeValue.SameLength item other)
    (hides : changeEncrypted policy
      (fun name => hide materials.encryption (nonces.content name) name) item =
        .ok hidden)
    (hidesOther : changeEncrypted policy
      (fun name => hide otherMaterials.encryption (otherNonces.content name) name) other =
        .ok otherHidden) :
    SameBut (Encrypts policy) AttributeValue.SameSize hidden otherHidden := by
  intro name
  refine ⟨fun encrypted => ?_, fun isOpen => ?_⟩
  · have lengths := (same name).1 encrypted
    have left := rel_get?_of_hides hides encrypted
    have right := rel_get?_of_hides hidesOther encrypted
    generalize item.get? name = value?, other.get? name = otherValue?, hidden.get? name = hidden?,
      otherHidden.get? name = otherHidden? at lengths left right
    cases lengths with
    | none =>
        cases left
        cases right
        exact .none
    | some lengths =>
        cases left with
        | some hides =>
            cases right with
            | some hidesOther => exact .some (sameSize_of_hide lengths hides hidesOther)
  · rw [get?_changeEncrypted_of_ne hides isOpen, get?_changeEncrypted_of_ne hidesOther isOpen]
    exact (same name).2 isOpen

/-- What has the length of something that can be written can be hidden. -/
theorem exists_hidden_of_sameBut
    (same : SameBut (Encrypts policy) AttributeValue.SameLength item other)
    (materials : KeyMaterials) (nonces : ItemNonces) :
    ∃ hidden,
      changeEncrypted policy (fun name => hide materials.encryption (nonces.content name) name)
        other = .ok hidden := by
  refine Ascending.exists_mapEntriesM_eq_ok_iff.2 fun entry member => ?_
  obtain ⟨before, -, ⟨encrypted, -, bytes, -, written, -⟩ | ⟨isOpen, -⟩⟩ :=
    same.of_get? (Ascending.mem_toList_iff.1 member)
  · simp only [Encrypts] at encrypted
    simp only [encrypted, if_true]
    exact exists_hide_iff.2 ⟨bytes, written⟩
  · exact ⟨entry.2, if_neg isOpen⟩

/-- If the hidden item can be signed, so can the other: what is bound and signed is the same
or of the same length. -/
theorem writable_of_sameBut
    (same : SameBut (Encrypts policy) AttributeValue.SameLength item other)
    (sameHidden : SameBut (Encrypts policy) AttributeValue.SameSize hidden otherHidden)
    {description : MaterialDescription}
    (writable : (Coverage.ofItem policy { context.bind item with description } hidden).Writable) :
    (Coverage.ofItem policy { context.bind other with description } otherHidden).Writable := by
  obtain ⟨entries, attributes⟩ := writable
  refine ⟨fun entry member => ?_, fun signed member => ?_⟩
  -- A key may be encrypted: it is bound as it was given, and its length says
  -- that it can be written.
  · obtain ⟨before, bound, ⟨-, lengths⟩ | same⟩ :=
      same.of_bind (Ascending.mem_toList_iff.1 member)
    · exact lengths.exists_serializeCanonical
    · rw [← same]
      exact entries (entry.1, before) (Ascending.mem_toList_iff.2 bound)
  · obtain ⟨acts, notAlone, found⟩ := Coverage.of_mem_signedAttributes member
    rw [acts] at notAlone
    obtain ⟨before, there, ⟨-, sizes⟩ | ⟨-, same⟩⟩ := sameHidden.of_get? found
    · exact sizes.exists_serializeCanonical
        (attributes _ (Coverage.mem_signedAttributes there notAlone))
    · rw [← same]
      exact attributes _ (Coverage.mem_signedAttributes there notAlone)

theorem sameBut_withSeal
    (same : SameBut (Encrypts policy) AttributeValue.SameSize hidden otherHidden)
    {text : AttributeValue} {tag otherTag : Bytes} (lengths : tag.length = otherTag.length) :
    SameBut (Concealed policy) AttributeValue.SameSize (hidden.withSeal text (.binary tag))
      (otherHidden.withSeal text (.binary otherTag)) := by
  intro name
  cases reserved : isReserved name with
  | false =>
      have concealed : Concealed policy name ↔ Encrypts policy name := by
        simp [Concealed, reserved, (ne_of_unreserved reserved).2]
      rw [get?_withSeal_of_ne reserved, get?_withSeal_of_ne reserved, concealed]
      exact same name
  | true =>
      rcases isReserved_iff.1 reserved with rfl | rfl
      · rw [get?_description_withSeal, get?_description_withSeal]
        refine ⟨fun concealed => ?_, fun _ => rfl⟩
        rcases concealed with isSignature | ⟨unreserved, -⟩
        · exact absurd isSignature (by decide)
        · cases unreserved
      · rw [get?_signature_withSeal, get?_signature_withSeal]
        exact ⟨fun _ => .some ⟨tag, otherTag, rfl, rfl, lengths⟩,
          fun isOpen => absurd (.inl rfl) isOpen⟩

/-- An item that agrees with a sealed one, but for the content of what is encrypted, is sealed too
under any keys of the same description, and the two are stored alike. -/
theorem exists_sealUnder_of_sameBut
    (same : SameBut (Encrypts policy) AttributeValue.SameLength item other)
    (description : otherMaterials.description = materials.description) {stored : Item}
    (seals : sealUnder policy (context.bind item) materials nonces item = .ok stored) :
    ∃ otherStored,
      sealUnder policy (context.bind other) otherMaterials otherNonces other = .ok otherStored ∧
      SameBut (Concealed policy) AttributeValue.SameSize stored otherStored := by
  obtain ⟨hidden, bytes, hides, covers, rfl⟩ := sealUnder_eq_ok seals
  obtain ⟨otherHidden, hidesOther⟩ := exists_hidden_of_sameBut same otherMaterials otherNonces
  have sameHidden := sameBut_of_hides same hides hidesOther
  have writable := writable_of_sameBut same sameHidden
    (Coverage.writable_of_bytes (Except.mapError_eq_ok_iff.1 covers))
  have coversOther :
      covered policy { context.bind other with description := materials.description }
        otherHidden = .ok _ :=
    Except.mapError_eq_ok_iff.2 (Coverage.bytes_of_writable writable)
  rw [← description] at coversOther ⊢
  refine ⟨_, Except.bind_eq_ok_iff.2 ⟨otherHidden, hidesOther,
    Except.bind_eq_ok_iff.2 ⟨_, coversOther, rfl⟩⟩, ?_⟩
  exact sameBut_withSeal sameHidden ((length_signature _ _ _).trans (length_signature _ _ _).symm)

end Pairs

/-! ## One item -/

/-- All that a sealed item shows of the item that was given. -/
structure SealedAs (policy : ActionPolicy) (description : MaterialDescription)
    (item stored : Item) : Prop where
  unreserved : ∀ name ∈ item.names, isReserved name = false
  names : ∀ name, name ∈ stored.names ↔ name ∈ item.names ∨ isReserved name = true
  kept : ∀ name value, item.get? name = some value → policy.action name ≠ .encryptAndSign →
    stored.get? name = some value
  /-- What is encrypted is as many bytes as the value is written as, a nonce and a tag. -/
  hidden : ∀ name value, item.get? name = some value → policy.action name = .encryptAndSign →
    ∃ plain bytes, value.serialize = .ok plain ∧ stored.get? name = some (.binary bytes) ∧
      bytes.length = plain.length + 28
  signature : ∃ tag, stored.get? signatureName = some (.binary tag) ∧ tag.length = 28
  description : ∃ text, stored.get? descriptionName = some (.string text) ∧
    MaterialDescription.ofText? text = some description

section Sealed

variable {σ : Type} {config : SealConfig σ} {nonces : ItemNonces} {item stored : Item}
  {world after : σ}

theorem exists_sealedAs (protects : config.policy.protectsNothing = false)
    (sealed : (sealWith config nonces item).runFrom world = (.ok stored, after)) :
    ∃ materials, (config.provider.encryptionMaterials (config.context.bind item)).runFrom world =
        (.ok materials, after) ∧ SealedAs config.policy materials.description item stored := by
  obtain ⟨materials, hidden, bytes, handedOut, hides, -, rfl, -⟩ :=
    exists_hidden_of_sealWith protects sealed
  refine ⟨materials, handedOut, ?_, ?_, ?_, ?_, ?_, ?_⟩
  · intro name member
    obtain ⟨value, found⟩ := Ascending.mem_names_iff.1 member
    exact isReserved_of_sealed sealed found
  · intro name
    rw [mem_names_withSeal, names_changeEncrypted hides]
  · exact fun name value found isOpen => get?_sealed_of_ne sealed found isOpen
  · intro name value found encrypted
    obtain ⟨key, stored, hides, here⟩ := exists_hide_of_sealed sealed found encrypted
    obtain ⟨plain, bytes, written, rfl, length⟩ := length_of_hide hides
    exact ⟨plain, bytes, written, here, length⟩
  · exact ⟨_, get?_signature_withSeal, length_signature _ _ _⟩
  · exact ⟨_, get?_description_withSeal, MaterialDescription.ofText?_text _⟩

/-- A sealed item cannot be sealed again, whatever the configuration. -/
theorem SealedAs.refused {policy : ActionPolicy} {description : MaterialDescription}
    (shape : SealedAs policy description item stored) {τ : Type} (again : SealConfig τ)
    (nonces : ItemNonces) (start : τ) :
    ∃ error, (sealWith again nonces stored).runFrom start = (.error error, start) ∧
      error.kind = .encryption := by
  have reserved : ∃ name ∈ stored.names, isReserved name = true :=
    ⟨signatureName, (shape.names signatureName).2 (.inr rfl), rfl⟩
  obtain ⟨error, fault, kind⟩ := sealFault?_of_reserved reserved
  refine ⟨error, ?_, kind⟩
  rw [sealWith, fault]
  rfl

/-- An item agrees with one that has no fault only if it has none either. -/
theorem SameBut.sealFault?_eq_none {under : String → Prop}
    {related : AttributeValue → AttributeValue → Prop} {other : Item}
    {context : EncryptionContext} (same : SameBut under related item other)
    (fault : sealFault? context item = none) : sealFault? context other = none := by
  obtain ⟨noDescription, noSignature, present⟩ := sealFault?_eq_none_iff.1 fault
  refine sealFault?_eq_none_iff.2 ⟨same.get?_eq_none_iff.1 noDescription,
    same.get?_eq_none_iff.1 noSignature, ?_⟩
  intro key isKey
  obtain ⟨value, found⟩ := present key isKey
  rw [← Option.ne_none_iff_exists', ne_eq, ← same.get?_eq_none_iff, found]
  exact Option.some_ne_none value

/-- What a sealed item is, wherever something is protected. It has the names of the item and
the two of the seal; what is not encrypted is as it was, what is encrypted is as many bytes as
it is written as and 28 more, as many are the signature, and the description is that of the
keys. It cannot be sealed again. And an item of the same names, the same values that are not
encrypted and the same lengths of the others, for which the provider has keys of the same
description, is sealed as well, under any nonces, and stored alike but for the bytes of what is
encrypted and of the signature. -/
theorem shape_of_sealed (acts : ∃ name, config.policy.action name ≠ .doNothing)
    (sealed : (sealWith config nonces item).runFrom world = (.ok stored, after)) :
    ∃ materials, (config.provider.encryptionMaterials (config.context.bind item)).runFrom world =
        (.ok materials, after) ∧
      SealedAs config.policy materials.description item stored ∧
      (∀ {τ : Type} (again : SealConfig τ) (nonces : ItemNonces) (start : τ), ∃ error,
        (sealWith again nonces stored).runFrom start = (.error error, start) ∧
          error.kind = .encryption) ∧
      ∀ (other : Item) (otherMaterials : KeyMaterials) (otherNonces : ItemNonces)
        (start last : σ), SameBut (Encrypts config.policy) AttributeValue.SameLength item other →
        (config.provider.encryptionMaterials (config.context.bind other)).runFrom start =
          (.ok otherMaterials, last) →
        otherMaterials.description = materials.description →
          ∃ otherStored, (sealWith config otherNonces other).runFrom start =
            (.ok otherStored, last) ∧
            SameBut (Concealed config.policy) AttributeValue.SameSize stored otherStored := by
  have protects := ActionPolicy.protectsNothing_eq_false_iff.2 acts
  obtain ⟨materials, handedOut, shape⟩ := exists_sealedAs protects sealed
  refine ⟨materials, handedOut, shape, fun again => shape.refused again, ?_⟩
  intro other otherMaterials otherNonces start last same handsOut description
  obtain ⟨fault, ⟨nothing, -⟩ | ⟨-, own, ownHandedOut, seals⟩⟩ := sealWith_eq_ok_iff.1 sealed
  · rw [protects] at nothing
    cases nothing
  cases handedOut.symm.trans ownHandedOut
  obtain ⟨otherStored, sealsOther, alike⟩ := exists_sealUnder_of_sameBut same description seals
  exact ⟨otherStored, sealWith_eq_ok_iff.2
    ⟨same.sealFault?_eq_none fault, .inr ⟨protects, otherMaterials, handsOut, sealsOther⟩⟩, alike⟩

end Sealed

namespace SampleOrder

/-- An order before it has lines. -/
def lineless : Item :=
  NameMap.ofList [("OrderId", .string "1"), ("Status", .string "shipped")]

def lined (lines : String) : Item := NameMap.insert lineless "Lines" (.string lines)

/-- Orders agree but for lines that are written as equally many bytes. -/
theorem sameBut_lined {left right : String}
    (same : (AttributeValue.string left).SameLength (.string right)) :
    SameBut (Encrypts config.policy) AttributeValue.SameLength (lined left) (lined right) := by
  intro name
  rw [lined, lined, NameMap.get?_insert, NameMap.get?_insert]
  split
  · next here =>
      subst here
      exact ⟨fun _ => .some same, fun isOpen => absurd rfl isOpen⟩
  · refine ⟨fun encrypted => ?_, fun _ => rfl⟩
    cases found : lineless.get? name with
    | none => exact .none
    | some value =>
        have isOpen : ∀ name ∈ lineless.names, config.policy.action name ≠ .encryptAndSign := by
          decide
        exact absurd encrypted (isOpen name (Ascending.mem_names_iff.2 ⟨value, found⟩))

def otherNonces : ItemNonces := ⟨fun _ => ⟨List.replicate 12 2, rfl⟩, ⟨List.replicate 12 3, rfl⟩⟩

end SampleOrder

open SampleOrder in
/-- Two orders with lines of one length, each sealed with its own nonces. -/
theorem shape_of_sealed_lined :
    ∃ stored otherStored, (sealWith config nonces (lined "pen")).runFrom () = (.ok stored, ()) ∧
      (sealWith config otherNonces (lined "ink")).runFrom () = (.ok otherStored, ()) ∧
      (∃ bytes, stored.get? "Lines" = some (.binary bytes) ∧ bytes.length = 36) ∧
      stored.get? "Status" = some (.string "shipped") ∧
      SameBut (Concealed config.policy) AttributeValue.SameSize stored otherStored ∧
      ∃ error, (sealWith config nonces stored).runFrom () = (.error error, ()) ∧
        error.kind = .encryption := by
  have sealed : ∃ stored, (sealWith config nonces (lined "pen")).runFrom () = (.ok stored, ()) :=
    ⟨_, rfl⟩
  obtain ⟨stored, sealed⟩ := sealed
  obtain ⟨materials, handedOut, shape, refused, others⟩ :=
    shape_of_sealed ⟨"Lines", by decide⟩ sealed
  cases handedOut
  have lengths : (AttributeValue.string "pen").SameLength (.string "ink") := ⟨_, _, rfl, rfl, rfl⟩
  obtain ⟨otherStored, sealedOther, alike⟩ :=
    others (lined "ink") keys.materials otherNonces () ()
    (sameBut_lined lengths) rfl rfl
  obtain ⟨plain, bytes, written, found, length⟩ :=
    shape.hidden "Lines" (.string "pen") rfl (by decide)
  cases written
  exact ⟨stored, otherStored, sealed, sealedOther, ⟨bytes, found, length⟩,
    shape.kept "Status" _ rfl (by decide), alike, refused config nonces ()⟩

end Item

end ItemSeal
