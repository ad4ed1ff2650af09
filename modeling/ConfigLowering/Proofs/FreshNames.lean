import Mathlib.Data.List.Nodup
import Mathlib.Data.List.Perm.Subperm
import Std.Data.String.ToNat
import ConfigLowering.Namespace

/-!
# Fresh names

A fresh name is an identifier that was not bound. There is one: the numbered names
are all different, and one more of them is tried than there are bound names.
-/

namespace ConfigLowering

/-! ## Identifiers -/

theorem isIdentifier_iff (name : String) :
    isIdentifier name ↔
      ∃ first rest, name.toList = first :: rest ∧ isIdentifierStart first ∧
        ∀ character ∈ rest, isIdentifierPart character := by
  rw [isIdentifier]
  cases name.toList with
  | nil => simp
  | cons first rest => simp

theorem isIdentifierPart_of_start {character : Char} (h : isIdentifierStart character) :
    isIdentifierPart character := by
  rw [isIdentifierPart]
  rw [isIdentifierStart] at h
  rw [h, Bool.true_or]

theorem isIdentifierPart_of_mem {name : String} (h : isIdentifier name) :
    ∀ character ∈ name.toList, isIdentifierPart character := by
  obtain ⟨first, rest, hname, hfirst, hrest⟩ := (isIdentifier_iff name).mp h
  rw [hname]
  intro character hmem
  obtain rfl | hmem := List.mem_cons.mp hmem
  · exact isIdentifierPart_of_start hfirst
  · exact hrest character hmem

theorem isIdentifierPart_of_mem_underscore :
    ∀ character ∈ "_".toList, isIdentifierPart character := by
  intro character hmem
  obtain rfl : character = '_' := by simpa using hmem
  decide

theorem isIdentifier_append {name suffix : String} (h : isIdentifier name)
    (hsuffix : ∀ character ∈ suffix.toList, isIdentifierPart character) :
    isIdentifier (name ++ suffix) := by
  obtain ⟨first, rest, hname, hfirst, hrest⟩ := (isIdentifier_iff name).mp h
  refine (isIdentifier_iff _).mpr ⟨first, rest ++ suffix.toList, by simp [hname], hfirst, ?_⟩
  intro character hmem
  obtain hmem | hmem := List.mem_append.mp hmem
  · exact hrest character hmem
  · exact hsuffix character hmem

theorem isIdentifierPart_of_isDigit {character : Char} (h : character.isDigit) :
    isIdentifierPart character := by
  have hvalue : character.toNat ≤ 57 := by
    rw [Char.isDigit, Bool.and_eq_true_iff, decide_eq_true_iff, decide_eq_true_iff] at h
    exact UInt32.le_iff_toNat_le.mp h.2
  have hascii : Text.isAscii character := by
    rw [Text.isAscii, decide_eq_true_iff]
    omega
  rw [isIdentifierPart, Text.isNumeric, if_pos hascii, h, Bool.or_true]

namespace Namespace

theorem isIdentifier_sanitize (base : String) : isIdentifier (sanitize base) := by
  have hrepaired : ∀ name : String, (∀ character ∈ name.toList, isIdentifierPart character) →
      isIdentifier (if isIdentifier name then name else "_" ++ name) := by
    intro name hparts
    split
    · assumption
    · exact @isIdentifier_append "_" name (by decide) hparts
  apply hrepaired
  intro character hmem
  split at hmem
  · rw [List.mem_singleton.mp hmem]
    decide
  · rw [String.toList_ofList, List.mem_map] at hmem
    obtain ⟨original, -, rfl⟩ := hmem
    split
    · assumption
    · decide

theorem isIdentifier_numbered {base : String} (h : isIdentifier base) (number : Nat) :
    isIdentifier (numbered base number) := by
  apply isIdentifier_append
  · exact isIdentifier_append h isIdentifierPart_of_mem_underscore
  · intro character hmem
    rw [Nat.toString_eq_repr, Nat.toList_repr] at hmem
    exact isIdentifierPart_of_isDigit (Nat.isDigit_of_mem_toDigits (by decide) (by decide) hmem)

theorem numbered_injective {base : String} {first second : Nat}
    (h : numbered base first = numbered base second) : first = second := by
  have hlist := congrArg String.toList h
  simp only [numbered, String.toList_append, List.append_cancel_left_eq] at hlist
  exact Nat.repr_injective (String.toList_injective hlist)

/-! ## Free numbers -/

theorem isIdentifier_freshNameFor (space : Namespace) (base : String) :
    isIdentifier (space.freshNameFor base) := by
  rw [freshNameFor]
  split
  · exact isIdentifier_numbered (isIdentifier_sanitize base) _
  · exact isIdentifier_sanitize base

/-- If no number tried is free, all of them are bound. -/
theorem contains_of_leastFreeNumber (space : Namespace) (base : String)
    (attempts number : Nat)
    (h : space.contains (numbered base (space.leastFreeNumber base attempts number))) :
    ∀ offset < attempts, space.contains (numbered base (number + offset)) := by
  induction attempts generalizing number with
  | zero => simp
  | succ attempts ih =>
      rw [leastFreeNumber] at h
      split at h
      · next hbound =>
          intro offset hoffset
          cases offset with
          | zero => exact hbound
          | succ offset =>
              have hnext := ih (number + 1) h offset (by omega)
              rwa [show number + (offset + 1) = number + 1 + offset by omega]
      · contradiction

theorem not_contains_leastFreeNumber (space : Namespace) (base : String) (number : Nat) :
    ¬ space.contains
      (numbered base (space.leastFreeNumber base (space.size + 1) number)) := by
  intro h
  have hbound := contains_of_leastFreeNumber space base _ number h
  have hnodup : ((List.range (space.size + 1)).map fun offset =>
      numbered base (number + offset)).Nodup := by
    apply List.Nodup.map _ List.nodup_range
    intro first second heq
    have := numbered_injective heq
    omega
  have hsubset : ((List.range (space.size + 1)).map fun offset =>
      numbered base (number + offset)) ⊆ space.bound.toList := by
    intro name hname
    obtain ⟨offset, hoffset, rfl⟩ := List.mem_map.mp hname
    rw [Std.ExtTreeSet.mem_toList]
    exact hbound offset (List.mem_range.mp hoffset)
  have hlength := hnodup.length_le_of_subset hsubset
  rw [List.length_map, List.length_range, Std.ExtTreeSet.length_toList] at hlength
  exact Nat.not_succ_le_self _ hlength

theorem not_contains_freshNameFor (space : Namespace) (base : String) :
    ¬ space.contains (space.freshNameFor base) := by
  rw [freshNameFor]
  split
  · exact space.not_contains_leastFreeNumber _ _
  · assumption

/-! ## Bound names -/

theorem contains_add_iff (space : Namespace) (name other : String) :
    (space.add name).2.contains other ↔ other = name ∨ space.contains other := by
  rw [contains, add, Std.ExtTreeSet.contains_insert, Bool.or_eq_true, beq_iff_eq,
    Std.LawfulEqOrd.compare_eq_iff_eq, eq_comm]
  rfl

end Namespace

end ConfigLowering
