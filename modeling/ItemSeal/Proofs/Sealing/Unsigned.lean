import ItemSeal.Proofs.Sealing.RoundTrip
import Mathlib.Data.Fintype.EquivFin

/-!
Items without a seal. A policy protects nothing exactly if it leaves every name alone that there
can be (`ActionPolicy.protectsNothing_iff`), and only then an item without a seal is taken for
what it is; no key is asked for to decide that: `Item.unsealWith_unsealed`.
-/

namespace ItemSeal

/-- A policy protects nothing exactly if it leaves every name alone: some name has no entry, so
the action for all others counts as well. -/
theorem ActionPolicy.protectsNothing_iff {policy : ActionPolicy} :
    policy.protectsNothing = true ↔ ∀ name, policy.action name = .doNothing := by
  constructor
  · exact fun nothing name => action_of_protectsNothing nothing name
  · intro alone
    simp only [protectsNothing, Bool.and_eq_true, beq_iff_eq, List.all_eq_true]
    constructor
    · obtain ⟨name, unlisted⟩ := Infinite.exists_notMem_finset policy.explicit.names.toFinset
      have noEntry : policy.explicit.get? name = none := by
        cases found : policy.explicit.get? name with
        | none => rfl
        | some action =>
            exact absurd (List.mem_toFinset.2 (Ascending.mem_names_iff.2 ⟨action, found⟩))
              unlisted
      have := alone name
      rwa [action, noEntry, Option.getD_none] at this
    · intro action member
      obtain ⟨⟨name, action⟩, inEntries, rfl⟩ := List.mem_map.1 member
      have := alone name
      rwa [ActionPolicy.action, Ascending.mem_toList_iff.1 inEntries, Option.getD_some] at this

theorem ActionPolicy.protectsNothing_eq_false_iff {policy : ActionPolicy} :
    policy.protectsNothing = false ↔ ∃ name, policy.action name ≠ .doNothing := by
  rw [Bool.eq_false_iff, ne_eq, protectsNothing_iff, not_forall]

namespace Item

/-- The item has a text for a description and bytes for a signature. -/
def CarriesSeal (item : Item) : Prop :=
  ∃ text signature, item.get? descriptionName = some (.string text) ∧
    item.get? signatureName = some (.binary signature)

/-- Without a seal, unsealing is decided by what the item has in place of
one, and by the policy. -/
theorem unsealWith_eq_of_not_carriesSeal {σ : Type} (config : SealConfig σ) {item : Item}
    (unsealed : ¬ item.CarriesSeal) :
    unsealWith config item =
      if item.get? descriptionName = none ∧ item.get? signatureName = none then
        if config.policy.protectsNothing then return item else throw .unsigned
      else throw .malformedSeal := by
  unfold unsealWith
  split
  · next noDescription noSignature =>
      have neither : item.get? descriptionName = none ∧ item.get? signatureName = none :=
        ⟨noDescription, noSignature⟩
      rw [if_pos neither]
  · next text signature described signed =>
      exact absurd ⟨text, signature, described, signed⟩ unsealed
  · next notBoth _ => rw [if_neg fun both => notBoth both.1 both.2]

/-- An item that does not carry a seal is unsealed exactly if it has neither part of one and
the policy leaves every name alone, and then it stays as it is. Otherwise its integrity is
in question. Whatever provider there is, it makes no difference and does nothing to the
world: it is not asked. -/
theorem unsealWith_unsealed {σ : Type} (config : SealConfig σ) (world : σ) {item : Item}
    (unsealed : ¬ item.CarriesSeal) :
    ∃ outcome,
      (∀ provider, (unsealWith { config with provider } item).runFrom world = (outcome, world)) ∧
      ((∃ result, outcome = .ok result) ↔
        item.get? descriptionName = none ∧ item.get? signatureName = none ∧
          ∀ name, config.policy.action name = .doNothing) ∧
      (∀ result, outcome = .ok result → result = item) ∧
      ∀ error, outcome = .error error → error.kind = .integrity := by
  have decided := fun provider : MaterialsProvider σ =>
    unsealWith_eq_of_not_carriesSeal { config with provider } unsealed
  by_cases neither : item.get? descriptionName = none ∧ item.get? signatureName = none
  · simp only [neither, and_self, if_true] at decided
    cases nothing : config.policy.protectsNothing with
    | true =>
        have alone := ActionPolicy.protectsNothing_iff.1 nothing
        refine ⟨.ok item, fun provider => ?_, ?_, ?_, ?_⟩
        · rw [decided, nothing]
          rfl
        · exact ⟨fun _ => ⟨neither.1, neither.2, alone⟩, fun _ => ⟨item, rfl⟩⟩
        · rintro result ⟨⟩
          rfl
        · rintro error ⟨⟩
    | false =>
        refine ⟨.error .unsigned, fun provider => ?_, ⟨?_, ?_⟩, ?_, ?_⟩
        · rw [decided, nothing]
          rfl
        · rintro ⟨result, ⟨⟩⟩
        · rintro ⟨-, -, alone⟩
          rw [ActionPolicy.protectsNothing_iff.2 alone] at nothing
          cases nothing
        · rintro result ⟨⟩
        · rintro error ⟨⟩
          rfl
  · refine ⟨.error .malformedSeal, fun provider => ?_, ⟨?_, ?_⟩, ?_, ?_⟩
    · rw [decided, if_neg neither]
      rfl
    · rintro ⟨result, ⟨⟩⟩
    · rintro ⟨noDescription, noSignature, -⟩
      exact absurd ⟨noDescription, noSignature⟩ neither
    · rintro result ⟨⟩
    · rintro error ⟨⟩
      rfl

namespace SampleOrder

/-- An order with no seal is refused where something is protected, and given where nothing is. -/
theorem unsealWith_order :
    (∃ error, (unsealWith config order).runFrom () = (.error error, ()) ∧
      error.kind = .integrity) ∧
      (unsealWith { config with policy := { fallback := .doNothing } } order).runFrom () =
        (.ok order, ()) := by
  have unsealed : ¬ order.CarriesSeal := by
    rintro ⟨text, signature, described, -⟩
    cases described
  constructor
  · obtain ⟨outcome, runs, accepts, -, refuses⟩ := unsealWith_unsealed config () unsealed
    have notOk : ¬ ∃ result, outcome = .ok result := by
      rw [accepts]
      rintro ⟨-, -, alone⟩
      cases alone "Lines"
    cases outcome with
    | ok result => exact absurd ⟨result, rfl⟩ notOk
    | error error => exact ⟨error, runs config.provider, refuses error rfl⟩
  · obtain ⟨outcome, runs, accepts, same, -⟩ :=
      unsealWith_unsealed { config with policy := { fallback := .doNothing } } () unsealed
    obtain ⟨result, rfl⟩ := accepts.2 ⟨rfl, rfl, fun _ => rfl⟩
    rw [runs, same result rfl]

end SampleOrder

end Item

end ItemSeal
