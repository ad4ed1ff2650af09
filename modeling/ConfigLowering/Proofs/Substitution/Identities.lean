import Mathlib.Data.Countable.Basic
import Mathlib.Logic.Equiv.List
import ConfigLowering.Proofs.Substitution.Translation
import ConfigLowering.Proofs.Value.Objects

/-!
# Identities for origins

Objects that were made one after the other have identities one after the other. Such
identities extend to all origins without giving one of them twice.
-/

namespace ConfigLowering

instance countable_string : Countable String := by
  have : Countable Char := Function.Injective.countable fun first second h => Char.toNat_inj.mp h
  exact Function.Injective.countable fun first second h => String.toList_injective h

namespace Origin

/-- The kind of an origin, its index, and its field or nothing. -/
def encode : Origin → Nat × Nat × String
  | node id => (0, id.index, "")
  | wrapper id field => (1, id.index, field)
  | code id => (2, id.index, "")

theorem encode_injective : Function.Injective encode := by
  intro first second h
  rcases first with ⟨⟨_⟩⟩ | ⟨⟨_⟩, _⟩ | ⟨⟨_⟩⟩ <;>
    rcases second with ⟨⟨_⟩⟩ | ⟨⟨_⟩, _⟩ | ⟨⟨_⟩⟩ <;> simp_all [encode]

instance countable : Countable Origin := encode_injective.countable

end Origin

/-- Consecutive identities for some keys, and others for all other keys. -/
theorem exists_identity {κ : Type} [Countable κ] [DecidableEq κ] {keys : List κ}
    (hkeys : keys.Nodup) (start : CodeId) :
    ∃ identity : κ → CodeId, Function.Injective identity ∧
      keys.map identity = start.range keys.length ∧
      ∀ key, start.index ≤ (identity key).index := by
  obtain ⟨number, hnumber⟩ := Countable.exists_injective_nat κ
  -- All other keys go behind the last of the consecutive identities.
  refine ⟨fun key =>
    if key ∈ keys then ⟨start.index + keys.idxOf key⟩
    else ⟨start.index + keys.length + number key⟩, ?_, ?_, ?_⟩
  · intro first second h
    have hfirst : first ∈ keys → keys.idxOf first < keys.length := List.idxOf_lt_length_of_mem
    have hsecond : second ∈ keys → keys.idxOf second < keys.length :=
      List.idxOf_lt_length_of_mem
    by_cases hleft : first ∈ keys <;> by_cases hright : second ∈ keys <;>
      simp only [hleft, hright, if_true, if_false, CodeId.mk.injEq] at h
    · exact (List.idxOf_inj hleft).mp (by omega)
    · have := hfirst hleft
      omega
    · have := hsecond hright
      omega
    · exact hnumber (by omega)
  · apply List.ext_getElem (by simp)
    intro position hposition _
    rw [List.length_map] at hposition
    simp [CodeId.range, hkeys.idxOf_getElem]
  · intro key
    by_cases hkey : key ∈ keys <;> simp only [hkey, if_true, if_false] <;> omega

end ConfigLowering
