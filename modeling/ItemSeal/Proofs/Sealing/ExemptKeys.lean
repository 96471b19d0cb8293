import ItemSeal.Proofs.Sealing.RoundTrip

/-!
What becomes of the keys of a table when its items are sealed. A key that the table's description
keeps is stored as it is. One that a key schema lists but none keeps, because a later element
takes its place or no partition key comes with it, is treated as the policy says, and a policy
that encrypts it hides it from the index: `SealConfig.forTable_ofDescription`.
-/

namespace ItemSeal

namespace TableDescription

/-- Only what is listed is kept. -/
theorem lists_of_keeps {description : TableDescription} {name : String}
    (keeps : description.Keeps name) :
    description.Lists name := by
  obtain ⟨elements, inSchemas, -, before, element, after, rfl, named, isKey, -⟩ := keeps
  exact ⟨_, inSchemas, element, by simp, named, isKey⟩

end TableDescription

namespace SealConfig

section Descriptions

variable {σ : Type} {name : String} {description : TableDescription} {schema : TableSchema}

/-- A description that is accepted gives a configuration, and its policy is the given one but for
the keys that the description keeps. -/
theorem action_forTable_ofDescription
    (accepted : TableSchema.ofDescription name description = .ok schema)
    (provider : MaterialsProvider σ) (policy : ActionPolicy) :
    ∃ config, forTable provider policy schema = .ok config ∧
      (∀ attr, description.Keeps attr → config.policy.action attr = .doNothing) ∧
      ∀ attr, ¬ description.Keeps attr → config.policy.action attr = policy.action attr := by
  have complete := (TableDescription.indexes_ofDescription accepted).1
  obtain ⟨keys, known⟩ := TableSchema.protectedKeys_eq_ok complete
  have kept : ∀ attr, attr ∈ keys ↔ description.Keeps attr := by
    intro attr
    rw [TableSchema.mem_protectedKeys known, TableDescription.mem_indexes_attributes_iff accepted]
  refine ⟨_, forTable_eq_ok_iff.2 ⟨keys, known, rfl⟩, ?_, ?_⟩
  · intro attr keeps
    rw [ActionPolicy.action_withIndexKeys, if_pos ((kept attr).2 keeps)]
  · intro attr lost
    have notKey : attr ∉ keys := fun member => lost ((kept attr).1 member)
    rw [ActionPolicy.action_withIndexKeys, if_neg notKey]

/-- The keys that a description lists are all left alone exactly if each is kept, or left
alone by the policy anyway; a regular description keeps them all, and no other attribute is
touched. Sealed items store what is kept, or not to be encrypted, as it is, and what is lost
and to be encrypted as bytes. -/
theorem forTable_ofDescription
    (accepted : TableSchema.ofDescription name description = .ok schema)
    (provider : MaterialsProvider σ) (policy : ActionPolicy) :
    ∃ config, forTable provider policy schema = .ok config ∧
      ((∀ attr, description.Lists attr → config.policy.action attr = .doNothing) ↔
        ∀ attr, description.Lists attr → description.Keeps attr ∨
          policy.action attr = .doNothing) ∧
      ((∀ elements ∈ description.keySchemas, TableDescription.Regular elements) →
        ∀ attr, description.Lists attr → config.policy.action attr = .doNothing) ∧
      (∀ attr, ¬ description.Lists attr → config.policy.action attr = policy.action attr) ∧
      ∀ nonces item stored world after,
        (Item.sealWith config nonces item).runFrom world = (.ok stored, after) →
          ∀ attr value, item.get? attr = some value →
            (description.Keeps attr ∨ policy.action attr ≠ .encryptAndSign →
              stored.get? attr = some value) ∧
            (¬ description.Keeps attr ∧ policy.action attr = .encryptAndSign →
              ∃ bytes, stored.get? attr = some (.binary bytes)) := by
  obtain ⟨config, built, kept, lost⟩ := action_forTable_ofDescription accepted provider policy
  refine ⟨config, built, ⟨?_, ?_⟩, ?_, ?_, ?_⟩
  · intro exempt attr lists
    by_cases keeps : description.Keeps attr
    · exact .inl keeps
    · exact .inr ((lost attr keeps).symm.trans (exempt attr lists))
  · intro either attr lists
    by_cases keeps : description.Keeps attr
    · exact kept attr keeps
    · rw [lost attr keeps]
      exact (either attr lists).resolve_left keeps
  · intro regular attr lists
    exact kept attr (TableDescription.keeps_of_lists regular lists)
  · intro attr unlisted
    exact lost attr fun keeps => unlisted (TableDescription.lists_of_keeps keeps)
  · intro nonces item stored world after sealed attr value found
    constructor
    · intro either
      apply Item.get?_sealed_of_ne sealed found
      by_cases keeps : description.Keeps attr
      · rw [kept attr keeps]
        exact Action.noConfusion
      · rw [lost attr keeps]
        exact either.resolve_left keeps
    · rintro ⟨gone, encrypted⟩
      exact Item.get?_sealed_of_encrypted sealed found ((lost attr gone).trans encrypted)

end Descriptions

namespace LostKeys

-- Of the first global index only the second partition key is kept, and of
-- the second index nothing.
def description : TableDescription where
  keySchema := some [⟨"A", .partition⟩]
  globalIndexes := some [some [⟨"B", .partition⟩, ⟨"C", .partition⟩], some [⟨"D", .sort⟩]]

def schema : TableSchema where
  name := "T"
  primary := some ⟨"A", none⟩
  secondary := [⟨"C", none⟩]

def fixedProvider : MaterialsProvider Unit := .ofKeys Item.SampleOrder.keys

theorem accepted : TableSchema.ofDescription "T" description = .ok schema := rfl

theorem lists : description.Lists "B" := by
  refine ⟨[⟨"B", .partition⟩, ⟨"C", .partition⟩], ?_, ⟨"B", .partition⟩, ?_, rfl, .inl rfl⟩
  · decide
  · decide

theorem not_keeps : ¬ description.Keeps "B" := by
  rw [← TableDescription.mem_indexes_attributes_iff accepted]
  decide

end LostKeys

open LostKeys in
/-- A listed key that is not exempt, and that ends up as bytes in every sealed item. -/
theorem forTable_lostKeys :
    ∃ config, forTable fixedProvider {} schema = .ok config ∧ description.Lists "B" ∧
      ¬ (∀ attr, description.Lists attr → config.policy.action attr = .doNothing) ∧
      ∀ nonces item stored, (Item.sealWith config nonces item).runFrom () = (.ok stored, ()) →
        ∀ value, item.get? "B" = some value →
          ∃ bytes, stored.get? "B" = some (.binary bytes) := by
  obtain ⟨config, built, exempt, -, -, stores⟩ := forTable_ofDescription accepted fixedProvider {}
  refine ⟨config, built, lists, ?_, ?_⟩
  · intro allExempt
    rcases exempt.1 allExempt "B" lists with keeps | alone
    · exact not_keeps keeps
    · cases alone
  · intro nonces item stored sealed value found
    exact (stores nonces item stored () () sealed "B" value found).2 ⟨not_keeps, rfl⟩

end SealConfig

end ItemSeal
