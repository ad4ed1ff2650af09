import Mathlib.Algebra.Group.Nat.Defs
import Mathlib.Data.Nat.Init
import Mathlib.Order.Bounds.Defs
import ConfigLowering.Proofs.FreshNames

/-!
# Least free numbers

A fresh name whose plain form is taken gets the least number from two on that makes it free.
The number is at most one more than there are bound names, since one of these is the plain
form itself, so a search that counts with 32 bits ends before its counter runs over.
-/

namespace ConfigLowering.Namespace

variable {space : Namespace} {base : String}

/-! ## Plain and numbered forms -/

theorem sanitize_of_isIdentifier (h : isIdentifier base) : sanitize base = base := by
  have hparts := isIdentifierPart_of_mem h
  obtain ⟨first, rest, hbase, -, -⟩ := (isIdentifier_iff base).mp h
  have hcharacters : (base.toList.map fun character =>
      if isIdentifierPart character then character else '_') = base.toList := by
    conv_rhs => rw [← List.map_id base.toList]
    exact List.map_congr_left fun character hmem => if_pos (hparts character hmem)
  have hnonempty : base.toList.isEmpty = false := by rw [hbase, List.isEmpty_cons]
  rw [sanitize, hcharacters, hnonempty, if_neg Bool.false_ne_true, String.ofList_toList,
    if_pos h]

theorem numbered_ne (base : String) (number : Nat) : numbered base number ≠ base := by
  intro h
  have hlength := congrArg String.length h
  simp only [numbered, String.length_append] at hlength
  have hunderscore : "_".length = 1 := rfl
  omega

/-! ## The search -/

theorem le_leastFreeNumber (space : Namespace) (base : String) (attempts number : Nat) :
    number ≤ space.leastFreeNumber base attempts number := by
  induction attempts generalizing number with
  | zero => exact Nat.le_refl number
  | succ attempts ih =>
      rw [leastFreeNumber]
      split
      · exact Nat.le_of_succ_le (ih (number + 1))
      · exact Nat.le_refl number

/-- The search passes bound names only. -/
theorem contains_of_lt_leastFreeNumber {attempts number earlier : Nat}
    (hfrom : number ≤ earlier) (hlt : earlier < space.leastFreeNumber base attempts number) :
    space.contains (numbered base earlier) := by
  induction attempts generalizing number with
  | zero => exact absurd hlt (Nat.not_lt.mpr hfrom)
  | succ attempts ih =>
      rw [leastFreeNumber] at hlt
      split at hlt
      · next hbound =>
          obtain rfl | hlater := Nat.eq_or_lt_of_le hfrom
          · exact hbound
          · exact ih hlater hlt
      · exact absurd hlt (Nat.not_lt.mpr hfrom)

/-- The plain form and the numbered ones are different names, so not too many of them can be
bound. -/
theorem le_of_contains_below {last : Nat} (hplain : space.contains base)
    (hbelow : ∀ number, 2 ≤ number → number < last → space.contains (numbered base number)) :
    last ≤ space.size + 1 := by
  have hnodup : (base :: (List.range' 2 (last - 2)).map (numbered base)).Nodup := by
    refine List.nodup_cons.mpr ⟨?_, List.Nodup.map ?_ List.nodup_range'⟩
    · rw [List.mem_map]
      rintro ⟨number, -, hsame⟩
      exact numbered_ne base number hsame
    · exact fun _ _ => numbered_injective
  have hsubset : base :: (List.range' 2 (last - 2)).map (numbered base) ⊆
      space.bound.toList := by
    intro name hname
    rw [Std.ExtTreeSet.mem_toList]
    obtain rfl | hname := List.mem_cons.mp hname
    · exact hplain
    · obtain ⟨number, hnumber, rfl⟩ := List.mem_map.mp hname
      rw [List.mem_range'_1] at hnumber
      exact hbelow number hnumber.1 (by omega)
  have hlength := hnodup.length_le_of_subset hsubset
  rw [List.length_cons, List.length_map, List.length_range', Std.ExtTreeSet.length_toList]
    at hlength
  rw [size]
  omega

theorem leastFreeNumber_le (hplain : space.contains base) (attempts : Nat) :
    space.leastFreeNumber base attempts 2 ≤ space.size + 1 :=
  le_of_contains_below hplain fun _ hfrom hlt => contains_of_lt_leastFreeNumber hfrom hlt

theorem isLeast_leastFreeNumber (space : Namespace) (base : String) :
    IsLeast {number | 2 ≤ number ∧ ¬ space.contains (numbered base number)}
      (space.leastFreeNumber base (space.size + 1) 2) := by
  refine ⟨⟨le_leastFreeNumber space base _ 2, space.not_contains_leastFreeNumber base 2⟩, ?_⟩
  rintro number ⟨hfrom, hfree⟩
  by_contra hlt
  exact hfree (contains_of_lt_leastFreeNumber hfrom (Nat.lt_of_not_le hlt))

/-! ## Counting with 32 bits -/

/-- From one number the search without a bound ends at another: it goes on while names are
bound, as long as the next number still is a signed one of 32 bits. -/
inductive CountsTo (space : Namespace) (base : String) : Nat → Nat → Prop
  | free {number : Nat} :
      ¬ space.contains (numbered base number) → CountsTo space base number number
  | bound {number last : Nat} :
      space.contains (numbered base number) → number + 1 < 2 ^ 31 →
        CountsTo space base (number + 1) last → CountsTo space base number last

theorem countsTo_of_isLeast {least last : Nat}
    (hlast : IsLeast {number | least ≤ number ∧ ¬ space.contains (numbered base number)} last)
    (hlimit : last < 2 ^ 31) : space.CountsTo base least last := by
  obtain ⟨⟨hfrom, hfree⟩, hleast⟩ := hlast
  -- Downwards from the end, each number before it is followed by the next.
  induction hfrom using Nat.decreasingInduction with
  | self => exact .free hfree
  | of_succ number hlt ih =>
      have hbound : space.contains (numbered base number) := by
        by_contra hfree'
        exact Nat.not_le_of_lt hlt (hleast ⟨Nat.le_refl number, hfree'⟩)
      refine .bound hbound (Nat.lt_of_le_of_lt hlt hlimit) (ih ?_)
      rintro other ⟨hother, hfree'⟩
      exact hleast ⟨Nat.le_of_succ_le hother, hfree'⟩

/-! ## Binding -/

theorem bindFresh_fst_of_not_contains (h : ¬ space.contains (sanitize base)) :
    (space.bindFresh base).1 = sanitize base := by
  simp [bindFresh, freshNameFor, h]

theorem bindFresh_fst_of_contains (h : space.contains (sanitize base)) :
    (space.bindFresh base).1 = numbered (sanitize base)
      (space.leastFreeNumber (sanitize base) (space.size + 1) 2) := by
  simp [bindFresh, freshNameFor, h]

/-- A fresh name is the sanitized base where that is free, and otherwise the base with the least
number from two on that is free. The search for it ends, after no more steps than there are
bound names. The name is an identifier that was free, and it alone is bound in addition. -/
theorem bindFresh_takes_least_number (space : Namespace) (base : String)
    (hsize : space.size ≤ 2 ^ 31 - 3) :
    isIdentifier (sanitize base) ∧
      (¬ space.contains (sanitize base) → (space.bindFresh base).1 = sanitize base) ∧
      (space.contains (sanitize base) → ∃ number,
        space.CountsTo (sanitize base) 2 number ∧
        IsLeast {number | 2 ≤ number ∧ ¬ space.contains (numbered (sanitize base) number)}
          number ∧
        number ≤ space.size + 1 ∧
        (space.bindFresh base).1 = numbered (sanitize base) number) ∧
      isIdentifier (space.bindFresh base).1 ∧
      ¬ space.contains (space.bindFresh base).1 ∧
      ∀ name, (space.bindFresh base).2.contains name ↔
        name = (space.bindFresh base).1 ∨ space.contains name := by
  refine ⟨isIdentifier_sanitize base, bindFresh_fst_of_not_contains, fun hplain => ?_,
    space.isIdentifier_freshNameFor base, space.not_contains_freshNameFor base,
    space.contains_add_iff _⟩
  have hleast := space.isLeast_leastFreeNumber (sanitize base)
  have hle := leastFreeNumber_le hplain (space.size + 1)
  exact ⟨_, countsTo_of_isLeast hleast (by omega), hleast, hle, bindFresh_fst_of_contains hplain⟩

/-- Both the plain form and the first number of a base that starts with a digit are taken. -/
def withDimensions : Namespace := initial.addAll ["_3d", "_3d_2", "_3d_4"]

theorem bindFresh_takes_least_number_dimensions :
    withDimensions.size ≤ 2 ^ 31 - 3 ∧ withDimensions.contains (sanitize "3d") ∧
      (withDimensions.bindFresh "3d").1 = "_3d_3" ∧
      ∃ number, withDimensions.CountsTo "_3d" 2 number ∧ numbered "_3d" number = "_3d_3" := by
  have hsize : withDimensions.size ≤ 2 ^ 31 - 3 := by decide +kernel
  have hplain : withDimensions.contains (sanitize "3d") := by decide +kernel
  have hname : (withDimensions.bindFresh "3d").1 = "_3d_3" := by decide +kernel
  have hsanitized : sanitize "3d" = "_3d" := by decide +kernel
  obtain ⟨-, -, hnumbered, -⟩ := bindFresh_takes_least_number withDimensions "3d" hsize
  obtain ⟨number, hcounts, -, -, hsame⟩ := hnumbered hplain
  rw [hsanitized] at hcounts hsame
  exact ⟨hsize, hplain, hname, number, hcounts, hsame.symm.trans hname⟩

end ConfigLowering.Namespace
