import Mathlib.Data.List.DropRight
import Mathlib.Data.List.Induction
import ConfigLowering.Proofs.Arguments

/-!
# Histories of arguments

Arguments that come from none by changes are known from the changes: a name is there since the
earliest insertion after its last removal, the names stand in the order of these insertions, and
the value is the last one that was set since.
-/

namespace ConfigLowering.Arguments

variable {α : Type}

/-! ## Removal -/

theorem removeEntry_removed (name : String) (entries : List (String × α)) :
    (removeEntry name entries).1 = entries.lookup name := by
  induction entries with
  | nil => rfl
  | cons entry entries ih =>
      obtain ⟨other, current⟩ := entry
      by_cases h : other = name
      · simp [removeEntry, h]
      · simp [removeEntry, h, ih, lookup_cons_ite, Ne.symm h]

theorem names_removeEntry (name : String) (entries : List (String × α)) :
    (removeEntry name entries).2.map Prod.fst = (entries.map Prod.fst).erase name := by
  induction entries with
  | nil => rfl
  | cons entry entries ih =>
      obtain ⟨other, current⟩ := entry
      by_cases h : other = name
      · simp [removeEntry, h]
      · simp [removeEntry, h, ih]

theorem lookup_removeEntry {entries : List (String × α)} (h : (entries.map Prod.fst).Nodup)
    (name other : String) :
    (removeEntry name entries).2.lookup other =
      if other = name then none else entries.lookup other := by
  induction entries with
  | nil => simp [removeEntry]
  | cons entry entries ih =>
      obtain ⟨key, current⟩ := entry
      obtain ⟨hfresh, hrest⟩ := List.nodup_cons.mp h
      by_cases hkey : key = name
      · have hgone : entries.lookup name = none :=
          (get?_eq_none_iff ⟨entries⟩ name).mpr (hkey ▸ hfresh)
        by_cases hother : other = name
        · simp [removeEntry, hkey, hother, hgone]
        · simp [removeEntry, hkey, hother, lookup_cons_ite]
      · by_cases hother : other = key
        · simp [removeEntry, hkey, hother]
        · simp [removeEntry, hkey, lookup_cons_ite, hother, ih hrest]

theorem remove_removed (arguments : Arguments α) (name : String) :
    (arguments.remove name).1 = arguments.get? name :=
  removeEntry_removed name arguments.entries

theorem names_remove (arguments : Arguments α) (name : String) :
    (arguments.remove name).2.names = arguments.names.erase name :=
  names_removeEntry name arguments.entries

theorem get?_remove {arguments : Arguments α} (h : arguments.names.Nodup) (name other : String) :
    (arguments.remove name).2.get? other =
      if other = name then none else arguments.get? other :=
  lookup_removeEntry h name other

/-! ## Replacement -/

theorem lookup_modifyEntry (name other : String) (change : α → α)
    (entries : List (String × α)) :
    (modifyEntry name change entries).lookup other =
      if other = name then (entries.lookup other).map change else entries.lookup other := by
  induction entries with
  | nil => simp [modifyEntry]
  | cons entry entries ih =>
      obtain ⟨key, current⟩ := entry
      by_cases hkey : key = name
      · by_cases hother : other = name <;> simp [modifyEntry, hkey, hother, lookup_cons_ite]
      · by_cases hother : other = key
        · simp [modifyEntry, hkey, hother]
        · simp [modifyEntry, hkey, lookup_cons_ite, hother, ih]

theorem get?_modify (arguments : Arguments α) (name other : String) (change : α → α) :
    (arguments.modify name change).get? other =
      if other = name then (arguments.get? other).map change else arguments.get? other :=
  lookup_modifyEntry name other change arguments.entries

/-! ## Changes -/

inductive Change (α : Type) where
  | insert (name : String) (value : α)
  | remove (name : String)
  /-- Another value where there is one. -/
  | replace (name : String) (value : α)

def perform (arguments : Arguments α) : Change α → Arguments α
  | .insert name value => (arguments.insert name value).2
  | .remove name => (arguments.remove name).2
  | .replace name value => arguments.modify name fun _ => value

/-- The arguments that changes make from none. -/
def ofChanges (changes : List (Change α)) : Arguments α := changes.foldl perform empty

@[simp] theorem ofChanges_concat (changes : List (Change α)) (change : Change α) :
    ofChanges (changes ++ [change]) = (ofChanges changes).perform change := by
  simp [ofChanges]

namespace Change

def inserts (name : String) : Change α → Bool
  | insert other _ => other = name
  | _ => false

def removes (name : String) : Change α → Bool
  | remove other => other = name
  | _ => false

/-- The value that a change sets for a name. -/
def valueFor? (name : String) : Change α → Option α
  | insert other value => if other = name then some value else none
  | replace other value => if other = name then some value else none
  | remove _ => none

end Change

/-! ## Lifetimes -/

/-- The changes since the earliest insertion of a name after which it was always there. There are
none if it is not there. -/
def lifetime (name : String) (changes : List (Change α)) : List (Change α) :=
  (changes.rtakeWhile (!·.removes name)).dropWhile (!·.inserts name)

theorem lifetime_concat (name : String) (changes : List (Change α)) (change : Change α) :
    lifetime name (changes ++ [change]) =
      if change.removes name then []
      else if lifetime name changes = [] then if change.inserts name then [change] else []
      else lifetime name changes ++ [change] := by
  rw [lifetime, List.rtakeWhile_concat]
  cases hremoves : change.removes name with
  | true => simp
  | false =>
      rw [lifetime]
      cases hinserts : change.inserts name <;>
        simp [List.dropWhile_append, hinserts]

theorem lifetime_of_removes {name : String} {change : Change α} (h : change.removes name)
    (changes : List (Change α)) : lifetime name (changes ++ [change]) = [] := by
  rw [lifetime_concat, if_pos h]

theorem lifetime_of_present {name : String} {changes : List (Change α)} {change : Change α}
    (hpresent : lifetime name changes ≠ []) (hkept : ¬ change.removes name) :
    lifetime name (changes ++ [change]) = lifetime name changes ++ [change] := by
  rw [lifetime_concat, if_neg hkept, if_neg hpresent]

theorem lifetime_of_absent {name : String} {changes : List (Change α)}
    (habsent : lifetime name changes = []) {change : Change α} (hkept : ¬ change.removes name) :
    lifetime name (changes ++ [change]) = if change.inserts name then [change] else [] := by
  rw [lifetime_concat, if_neg hkept, if_pos habsent]

theorem lifetime_insert (name : String) (value : α) (changes : List (Change α)) :
    lifetime name (changes ++ [.insert name value]) =
      lifetime name changes ++ [.insert name value] := by
  rw [lifetime_concat]
  split <;> simp_all [Change.inserts, Change.removes]

theorem exists_lifetime_eq_cons {name : String} {changes : List (Change α)}
    (h : lifetime name changes ≠ []) :
    ∃ value rest, lifetime name changes = .insert name value :: rest := by
  obtain ⟨first, rest, hlifetime⟩ := List.exists_cons_of_ne_nil h
  have hinserts : first.inserts name := by
    have hhead := List.head?_dropWhile_not (!·.inserts name) (changes.rtakeWhile (!·.removes name))
    rw [← lifetime, hlifetime] at hhead
    simpa using hhead
  cases first with
  | insert other value =>
      obtain rfl : other = name := of_decide_eq_true hinserts
      exact ⟨value, rest, hlifetime⟩
  | remove other => contradiction
  | replace other value => contradiction

/-- The place among the changes where the lifetime of a name begins. -/
def insertedAt (name : String) (changes : List (Change α)) : Nat :=
  changes.length - (lifetime name changes).length

/-! ## Last values -/

/-- The last value that was set for a name in its lifetime. -/
def lastValue? (name : String) (changes : List (Change α)) : Option α :=
  ((lifetime name changes).filterMap (·.valueFor? name)).getLast?

theorem lastValue?_eq_none_iff (name : String) (changes : List (Change α)) :
    lastValue? name changes = none ↔ lifetime name changes = [] := by
  refine ⟨fun hnone => by_contra fun hpresent => ?_, fun habsent => by simp [lastValue?, habsent]⟩
  obtain ⟨value, rest, hlifetime⟩ := exists_lifetime_eq_cons hpresent
  simp [lastValue?, hlifetime, Change.valueFor?] at hnone

theorem lastValue?_of_other {name : String} {change : Change α} (hkept : ¬ change.removes name)
    (hold : ¬ change.inserts name) (hother : change.valueFor? name = none)
    (changes : List (Change α)) :
    lastValue? name (changes ++ [change]) = lastValue? name changes := by
  by_cases h : lifetime name changes = []
  · rw [lastValue?, lifetime_of_absent h hkept, if_neg hold, lastValue?, h]
  · rw [lastValue?, lifetime_of_present h hkept, List.filterMap_append]
    simp [hother, lastValue?]

theorem lastValue?_insert (name other : String) (value : α) (changes : List (Change α)) :
    lastValue? other (changes ++ [.insert name value]) =
      if other = name then some value else lastValue? other changes := by
  split
  · next hsame =>
      rw [hsame, lastValue?, lifetime_insert, List.filterMap_append]
      simp [Change.valueFor?]
  · next hother =>
      apply lastValue?_of_other <;>
        simp [Change.removes, Change.inserts, Change.valueFor?, Ne.symm hother]

theorem lastValue?_remove (name other : String) (changes : List (Change α)) :
    lastValue? other (changes ++ [.remove name]) =
      if other = name then none else lastValue? other changes := by
  split
  · next hsame =>
      rw [hsame, lastValue?, lifetime_of_removes (by simp [Change.removes])]
      rfl
  · next hother =>
      apply lastValue?_of_other <;>
        simp [Change.removes, Change.inserts, Change.valueFor?, Ne.symm hother]

theorem lastValue?_replace (name other : String) (value : α) (changes : List (Change α)) :
    lastValue? other (changes ++ [.replace name value]) =
      if other = name then (lastValue? other changes).map fun _ => value
      else lastValue? other changes := by
  have hkept : ¬ (Change.replace name value).removes other := by simp [Change.removes]
  have hold : ¬ (Change.replace name value).inserts other := by simp [Change.inserts]
  split
  · next hsame =>
      cases hlast : lastValue? other changes with
      | none =>
          have habsent := (lastValue?_eq_none_iff other changes).mp hlast
          rw [lastValue?, lifetime_of_absent habsent hkept, if_neg hold]
          rfl
      | some current =>
          have hpresent : lifetime other changes ≠ [] := by
            rw [Ne, ← lastValue?_eq_none_iff, hlast]
            exact Option.some_ne_none current
          rw [lastValue?, lifetime_of_present hpresent hkept, List.filterMap_append]
          simp [Change.valueFor?, hsame]
  · next hother =>
      exact lastValue?_of_other hkept hold (by simp [Change.valueFor?, Ne.symm hother]) changes

/-! ## The invariant -/

/-- Later names have shorter lifetimes. -/
def Ordered (changes : List (Change α)) (names : List String) : Prop :=
  names.Pairwise fun earlier later =>
    (lifetime later changes).length < (lifetime earlier changes).length

structure Reflects (arguments : Arguments α) (changes : List (Change α)) : Prop where
  nodup : arguments.names.Nodup
  ordered : Ordered changes arguments.names
  get?_eq : ∀ name, arguments.get? name = lastValue? name changes

variable {arguments : Arguments α} {changes : List (Change α)}

theorem reflects_empty : (empty : Arguments α).Reflects [] where
  nodup := List.nodup_nil
  ordered := List.Pairwise.nil
  get?_eq _ := rfl

theorem Reflects.mem_iff (h : arguments.Reflects changes) (name : String) :
    name ∈ arguments.names ↔ lifetime name changes ≠ [] := by
  rw [← not_iff_not, not_not, ← get?_eq_none_iff, h.get?_eq, lastValue?_eq_none_iff]

/-- A change makes the lifetimes of all names longer that it does not remove. -/
theorem Ordered.concat {names : List String} (h : Ordered changes names) {change : Change α}
    (hpresent : ∀ name ∈ names, lifetime name changes ≠ [] ∧ ¬ change.removes name) :
    Ordered (changes ++ [change]) names := by
  refine h.imp_of_mem fun {earlier later} hearlier hlater hshorter => ?_
  obtain ⟨hearlier, hkept⟩ := hpresent earlier hearlier
  obtain ⟨hlater, hkept'⟩ := hpresent later hlater
  rw [lifetime_of_present hearlier hkept, lifetime_of_present hlater hkept', List.length_append,
    List.length_append]
  exact Nat.add_lt_add_right hshorter _

/-- A name that comes now has the shortest lifetime. -/
theorem Ordered.concat_new {names : List String} (h : Ordered changes names) {name : String}
    (value : α) (hpresent : ∀ name ∈ names, lifetime name changes ≠ [])
    (habsent : lifetime name changes = []) :
    Ordered (changes ++ [.insert name value]) (names ++ [name]) := by
  have hkept : ∀ other, ¬ (Change.insert name value).removes other := by simp [Change.removes]
  refine List.pairwise_append.mpr ⟨h.concat fun other hother => ⟨hpresent other hother, hkept other⟩,
    List.pairwise_singleton _ _, fun other hother new hnew => ?_⟩
  obtain rfl := List.mem_singleton.mp hnew
  have hother := hpresent other hother
  rw [lifetime_insert, lifetime_of_present hother (hkept other), habsent]
  simpa using List.length_pos_iff.mpr hother

theorem Reflects.insert (h : arguments.Reflects changes) (name : String) (value : α) :
    (arguments.insert name value).2.Reflects (changes ++ [.insert name value]) where
  nodup := arguments.nodup_names_insert name value h.nodup
  ordered := by
    have hpresent : ∀ other ∈ arguments.names, lifetime other changes ≠ [] :=
      fun other hother => (h.mem_iff other).mp hother
    rw [names_insert]
    split
    · exact h.ordered.concat fun other hother => ⟨hpresent other hother, by simp [Change.removes]⟩
    · next hnew =>
        have habsent := not_not.mp (mt (h.mem_iff name).mpr hnew)
        exact h.ordered.concat_new value hpresent habsent
  get?_eq other := by rw [get?_insert, h.get?_eq, lastValue?_insert]

theorem Reflects.remove (h : arguments.Reflects changes) (name : String) :
    (arguments.remove name).2.Reflects (changes ++ [.remove name]) where
  nodup := by
    rw [names_remove]
    exact h.nodup.erase name
  ordered := by
    rw [names_remove]
    have hothers : Ordered changes (arguments.names.erase name) :=
      h.ordered.sublist List.erase_sublist
    refine hothers.concat fun other hother => ?_
    obtain ⟨hne, hmem⟩ := (List.Nodup.mem_erase_iff h.nodup).mp hother
    exact ⟨(h.mem_iff other).mp hmem, by simpa [Change.removes] using Ne.symm hne⟩
  get?_eq other := by rw [get?_remove h.nodup, h.get?_eq, lastValue?_remove]

theorem Reflects.replace (h : arguments.Reflects changes) (name : String) (value : α) :
    (arguments.modify name fun _ => value).Reflects (changes ++ [.replace name value]) where
  nodup := by
    rw [names_modify]
    exact h.nodup
  ordered := by
    rw [names_modify]
    exact h.ordered.concat fun other hother =>
      ⟨(h.mem_iff other).mp hother, by simp [Change.removes]⟩
  get?_eq other := by rw [get?_modify, h.get?_eq, lastValue?_replace]

theorem reflects_ofChanges (changes : List (Change α)) : (ofChanges changes).Reflects changes := by
  induction changes using List.reverseRecOn with
  | nil => exact reflects_empty
  | append_singleton changes change ih =>
      rw [ofChanges_concat]
      cases change with
      | insert name value => exact ih.insert name value
      | remove name => exact ih.remove name
      | replace name value => exact ih.replace name value

/-- A name that is inserted again keeps its place, unless it was removed. -/
example : (ofChanges [.insert "size" 1, .insert "name" 2, .insert "size" 3, .remove "name",
    .replace "name" 4, .insert "bias" 5, .insert "name" 6, .replace "bias" 7]).entries =
      [("size", 3), ("bias", 7), ("name", 6)] := by decide

theorem length_lifetime_le (name : String) (changes : List (Change α)) :
    (lifetime name changes).length ≤ changes.length :=
  ((List.dropWhile_suffix _).trans (List.rtakeWhile_suffix _ _)).length_le

theorem Reflects.pairwise_insertedAt (h : arguments.Reflects changes) :
    arguments.names.Pairwise fun earlier later =>
      insertedAt earlier changes < insertedAt later changes := by
  refine h.ordered.imp fun {earlier later} hshorter => ?_
  have hearlier := length_lifetime_le earlier changes
  rw [insertedAt, insertedAt]
  omega

end ConfigLowering.Arguments
