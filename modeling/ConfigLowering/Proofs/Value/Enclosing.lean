import Mathlib.Logic.Relation
import ConfigLowering.Proofs.Value.Parts

/-!
# Everything inside a value

A value encloses itself and what stands inside it at any depth. References to config
nodes are not followed.
-/

namespace ConfigLowering.Value

def Encloses : Value → Value → Prop :=
  Relation.ReflTransGen fun whole part => part ∈ whole.children

/-- The value and everything inside it have the property. -/
def Everywhere (fine : Value → Prop) (value : Value) : Prop :=
  ∀ part, value.Encloses part → fine part

variable {fine : Value → Prop}

theorem everywhere_iff (value : Value) :
    value.Everywhere fine ↔ fine value ∧ ∀ child ∈ value.children, child.Everywhere fine := by
  constructor
  · intro h
    exact ⟨h value .refl, fun child hchild part hpart => h part (.head hchild hpart)⟩
  · rintro ⟨hvalue, hchildren⟩ part hpart
    obtain rfl | ⟨child, hchild, hpart⟩ := Relation.ReflTransGen.cases_head hpart
    · exact hvalue
    · exact hchildren child hchild part hpart

/-! ## Rebuilt values -/

theorem children_rebuild {value : Value} (id : CodeId) {results : List Value}
    (hlength : results.length = value.children.length) :
    (value.rebuild id results).children = results := by
  cases value with
  | list items => rfl
  | tuple items => rfl
  | dict entries =>
      apply List.map_snd_zip
      simp_all [children]
  | call _ _ positional named _ =>
      have hnamed : (results.drop positional.length).length ≤ (named.map Prod.fst).length := by
        simp_all [children]
      rw [rebuild, children, List.map_snd_zip hnamed, List.take_append_drop]
  | tagged _ tagNames item =>
      obtain ⟨result, rfl⟩ := List.length_eq_one_iff.mp hlength
      rfl
  | _ => exact (List.length_eq_zero_iff.mp hlength).symm

theorem everywhere_rebuild {value : Value} {id : CodeId} {results : List Value}
    (hlength : results.length = value.children.length) (hvalue : fine (value.rebuild id results))
    (hresults : ∀ result ∈ results, result.Everywhere fine) :
    (value.rebuild id results).Everywhere fine := by
  rw [everywhere_iff, children_rebuild id hlength]
  exact ⟨hvalue, hresults⟩

theorem role_rebuild {value : Value} (id : CodeId) (results : List Value)
    (hrole : value.role = .ordinary) : (value.rebuild id results).role = .ordinary := by
  cases value <;> exact hrole

theorem isCode_rebuild (value : Value) (id : CodeId) (results : List Value) :
    (value.rebuild id results).isCode = value.isCode := by
  cases value <;> rfl

end ConfigLowering.Value
