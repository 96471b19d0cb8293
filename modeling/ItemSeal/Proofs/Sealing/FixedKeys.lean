import ItemSeal.Proofs.Sealing.ActLoops
import ItemSeal.Proofs.Sealing.RoundTrip

/-!
Sealing with a fixed pair of keys, which needs nothing from the world and does nothing to it.
`Item.SealOf` relates an item as it is stored to the item that was given: it has the same keys
(`Item.SealOf.get?_eq`) and comes back settled, in any world (`Item.SealOf.unseals`).
-/

namespace ItemSeal.Item

variable {σ : Type} {keys : RawKeys} {config : SealConfig σ} {stored item : Item}

/-- All that sealing does to the world is that new keys are handed out. -/
theorem keeps_sealWith_of_newKeys {property : σ → Prop}
    (newKeys : ∀ context, Act.Keeps property (config.provider.encryptionMaterials context))
    (nonces : ItemNonces) (item : Item) : Act.Keeps property (sealWith config nonces item) := by
  unfold sealWith
  split
  · exact .throw _
  · split
    · exact .pure item
    · exact (newKeys _).bind fun _ => .liftM _

/-- Fixed keys are handed out in any world, which stays as it is. -/
theorem keeps_sealWith (fixed : config.provider = .ofKeys keys) (property : σ → Prop)
    (nonces : ItemNonces) (item : Item) : Act.Keeps property (sealWith config nonces item) := by
  refine keeps_sealWith_of_newKeys (fun context => ?_) nonces item
  rw [fixed]
  exact .pure keys.materials

theorem keeps_unsealWith (fixed : config.provider = .ofKeys keys) (property : σ → Prop)
    (stored : Item) :
    Act.Keeps property (unsealWith config stored) := by
  unfold unsealWith
  split
  · split
    · exact .pure stored
    · exact .throw _
  · split
    · exact .throw _
    · rw [fixed]
      refine Act.Keeps.bind ?_ fun _ => .liftM _
      dsimp only [MaterialsProvider.ofKeys]
      split
      · exact .pure keys.materials
      · exact .throw _
  · exact .throw _

/-- The first item is what is stored for the second. -/
def SealOf (config : SealConfig σ) (stored item : Item) : Prop :=
  ∃ nonces world after, (sealWith config nonces item).runFrom world = (.ok stored, after)

/-- What an item gives its keys, which nothing encrypts, its sealed form gives them too. -/
theorem SealOf.get?_eq (sealOf : SealOf config stored item) (readable : config.KeysReadable)
    {key : String} (isKey : key ∈ config.context.keyNames) : stored.get? key = item.get? key := by
  obtain ⟨nonces, world, after, sealed⟩ := sealOf
  obtain ⟨-, -, hasKeys⟩ := sealFault?_eq_none_iff.1 (sealWith_eq_ok_iff.1 sealed).1
  obtain ⟨value, found⟩ := hasKeys key isKey
  rw [get?_sealed_of_ne sealed found (readable key isKey), found]

/-- What is stored for an item is unsealed to the settled item, in any world. -/
theorem SealOf.unseals (sealOf : SealOf config stored item)
    (fixed : config.provider = .ofKeys keys) (readable : config.KeysReadable) (world : σ) :
    (unsealWith config stored).runFrom world = (.ok (item.settledUnder config.policy),
      world) := by
  obtain ⟨nonces, before, after, sealed⟩ := sealOf
  have findsAgain : config.provider.FindsAgain (config.context.bind item) before world := by
    rw [fixed]
    exact MaterialsProvider.findsAgain_ofKeys keys _ _ _
  obtain ⟨last, unsealed⟩ := unsealWith_of_sealWith readable findsAgain sealed
  have kept : last = world := by
    have kept := keeps_unsealWith fixed (· = world) stored world rfl
    rwa [unsealed] at kept
  rw [unsealed, kept]

/-- Only the actions of a policy count for how an item comes back. -/
theorem settledUnder_congr {policy other : ActionPolicy}
    (same : ∀ name, policy.action name = other.action name) (item : Item) :
    item.settledUnder policy = item.settledUnder other := by
  simp only [settledUnder, same]

end ItemSeal.Item
