import Mathlib.Data.List.Basic
import Mathlib.Logic.Relation
import ConfigLowering.Value

/-!
# Exploration

Recursive depth-first search that remembers in one list what it has visited. There is one way to
go, and nodes that were visited before or elsewhere may be left out.
-/

namespace ConfigLowering

open Relation

/-- Visits some nodes in turn, each with everything behind it before the next one. The first
list is what was visited before, the last one what is visited afterwards, in the order of the
visits. -/
inductive Explores (next : NodeId → List NodeId) :
    List NodeId → List NodeId → List NodeId → Prop
  | nil (visited : List NodeId) : Explores next visited [] visited
  | known {visited after ids : List NodeId} {id : NodeId} :
      id ∈ visited → Explores next visited ids after → Explores next visited (id :: ids) after
  | fresh {visited between after ids : List NodeId} {id : NodeId} :
      id ∉ visited → Explores next (visited ++ [id]) (next id) between →
      Explores next between ids after → Explores next visited (id :: ids) after

namespace Explores

variable {next : NodeId → List NodeId} {visited between after ids more : List NodeId}

/-! ## One exploration after the other -/

theorem append (h : Explores next visited ids between) (hmore : Explores next between more after) :
    Explores next visited (ids ++ more) after := by
  induction h with
  | nil => exact hmore
  | known hid _ ih => exact .known hid (ih hmore)
  | fresh hid hnext _ _ ih => exact .fresh hid hnext (ih hmore)

theorem exists_of_append (h : Explores next visited (ids ++ more) after) :
    ∃ between, Explores next visited ids between ∧ Explores next between more after := by
  induction ids generalizing visited with
  | nil => exact ⟨visited, .nil visited, h⟩
  | cons id ids ih =>
      cases h with
      | known hid hrest =>
          obtain ⟨between, hids, hmore⟩ := ih hrest
          exact ⟨between, .known hid hids, hmore⟩
      | fresh hid hnext hrest =>
          obtain ⟨between, hids, hmore⟩ := ih hrest
          exact ⟨between, .fresh hid hnext hids, hmore⟩

theorem unique {other : List NodeId} (h : Explores next visited ids after)
    (hother : Explores next visited ids other) : after = other := by
  induction h generalizing other with
  | nil => cases hother; rfl
  | known hid _ ih =>
      cases hother with
      | known _ hrest => exact ih hrest
      | fresh hnew => contradiction
  | fresh hnew _ _ ihnext ihrest =>
      cases hother with
      | known hid => contradiction
      | fresh _ hnext hrest =>
          obtain rfl := ihnext hnext
          exact ihrest hrest

/-! ## What is visited -/

theorem subset (h : Explores next visited ids after) : visited ⊆ after := by
  induction h with
  | nil => exact List.Subset.refl _
  | known _ _ ih => exact ih
  | fresh _ _ _ ihnext ihrest =>
      exact fun id hid => ihrest (ihnext (List.mem_append_left _ hid))

theorem visits (h : Explores next visited ids after) : ids ⊆ after := by
  induction h with
  | nil => exact List.nil_subset _
  | known hid hrest ih => exact List.cons_subset.mpr ⟨hrest.subset hid, ih⟩
  | fresh _ hnext hrest _ ih =>
      have hid := hnext.subset (List.mem_append_right _ List.mem_cons_self)
      exact List.cons_subset.mpr ⟨hrest.subset hid, ih⟩

theorem nodup (h : Explores next visited ids after) (hvisited : visited.Nodup) : after.Nodup := by
  induction h with
  | nil => exact hvisited
  | known _ _ ih => exact ih hvisited
  | fresh hnew _ _ ihnext ihrest =>
      refine ihrest (ihnext (List.nodup_append.mpr ⟨hvisited, List.pairwise_singleton _ _, ?_⟩))
      rintro id hid _ hsame rfl
      exact hnew (List.mem_singleton.mp hsame ▸ hid)

/-- What is visited newly is left only when everything next to it is visited. -/
theorem closes (h : Explores next visited ids after) :
    ∀ id ∈ after, id ∈ visited ∨ next id ⊆ after := by
  induction h with
  | nil => exact fun _ => .inl
  | known _ _ ih => exact ih
  | fresh _ hnext hrest ihnext ihrest =>
      intro id hid
      obtain hid | hclosed := ihrest id hid
      · obtain hid | hclosed := ihnext id hid
        · obtain hid | hid := List.mem_append.mp hid
          · exact .inl hid
          · rw [List.mem_singleton.mp hid]
            exact .inr (List.Subset.trans hnext.visits hrest.subset)
        · exact .inr (List.Subset.trans hclosed hrest.subset)
      · exact .inr hclosed

theorem reached (h : Explores next visited ids after) :
    ∀ id ∈ after, id ∈ visited ∨
      ∃ start ∈ ids, ReflTransGen (fun parent child => child ∈ next parent) start id := by
  induction h with
  | nil => exact fun _ => .inl
  | known _ _ ih =>
      intro id hid
      obtain hid | ⟨start, hstart, hpath⟩ := ih id hid
      · exact .inl hid
      · exact .inr ⟨start, List.mem_cons_of_mem _ hstart, hpath⟩
  | fresh _ _ _ ihnext ihrest =>
      intro id hid
      obtain hid | ⟨start, hstart, hpath⟩ := ihrest id hid
      · obtain hid | ⟨start, hstart, hpath⟩ := ihnext id hid
        · obtain hid | hid := List.mem_append.mp hid
          · exact .inl hid
          · exact .inr ⟨_, List.mem_cons_self, List.mem_singleton.mp hid ▸ .refl⟩
        · exact .inr ⟨_, List.mem_cons_self, .head hstart hpath⟩
      · exact .inr ⟨start, List.mem_cons_of_mem _ hstart, hpath⟩

/-- What can be reached is visited, if nothing that was visited before hides a part of it. -/
theorem mem_iff_of_clear (h : Explores next visited ids after)
    (hclear : ∀ id ∈ visited, (∃ start ∈ ids,
      ReflTransGen (fun parent child => child ∈ next parent) start id) → next id ⊆ visited)
    (id : NodeId) :
    id ∈ after ↔ id ∈ visited ∨
      ∃ start ∈ ids, ReflTransGen (fun parent child => child ∈ next parent) start id := by
  constructor
  · exact h.reached id
  · rintro (hid | ⟨start, hstart, hpath⟩)
    · exact h.subset hid
    · -- A node on the path was visited before and hides nothing, or it was left closed.
      induction hpath with
      | refl => exact h.visits hstart
      | @tail parent child hpath hchild ih =>
          obtain hvisited | hclosed := h.closes parent ih
          · exact h.subset (hclear parent hvisited ⟨start, hstart, hpath⟩ hchild)
          · exact hclosed hchild

theorem mem_iff (h : Explores next [] ids after) (id : NodeId) :
    id ∈ after ↔
      ∃ start ∈ ids, ReflTransGen (fun parent child => child ∈ next parent) start id :=
  (h.mem_iff_of_clear nofun id).trans (or_iff_right List.not_mem_nil)

/-! ## What need not be visited again -/

theorem of_filter {known : List NodeId} (hknown : known ⊆ visited)
    (h : Explores next visited (ids.filter (!known.contains ·)) after) :
    Explores next visited ids after := by
  induction ids generalizing visited with
  | nil => exact h
  | cons id ids ih =>
      by_cases hid : id ∈ known
      · rw [List.filter_cons_of_neg (by simpa using hid)] at h
        exact .known (hknown hid) (ih hknown h)
      · rw [List.filter_cons_of_pos (by simpa using hid)] at h
        cases h with
        | known hvisited hrest => exact .known hvisited (ih hknown hrest)
        | fresh hnew hnext hrest =>
            have hbetween : known ⊆ _ := fun other hother =>
              hnext.subset (List.mem_append_left _ (hknown hother))
            exact .fresh hnew hnext (ih hbetween hrest)

variable {done : List NodeId}

/-- Nothing new is behind nodes of a closed list. -/
theorem filter_eq_of_subset (hdone : ∀ id ∈ done, next id ⊆ done)
    (h : Explores next visited ids after) (hids : ids ⊆ done) :
    after.filter (!done.contains ·) = visited.filter (!done.contains ·) := by
  induction h with
  | nil => rfl
  | known _ _ ih => exact ih (List.cons_subset.mp hids).2
  | fresh _ _ _ ihnext ihrest =>
      obtain ⟨hid, hids⟩ := List.cons_subset.mp hids
      rw [ihrest hids, ihnext (hdone _ hid), List.filter_append]
      simp [hid]

/-- An exploration that knows of a closed list visits what an exploration visits that does not
know of it, apart from the nodes of that list. -/
theorem beside (hdone : ∀ id ∈ done, next id ⊆ done) (h : Explores next visited ids after) :
    Explores next (done ++ visited.filter (!done.contains ·)) ids
      (done ++ after.filter (!done.contains ·)) := by
  induction h with
  | nil => exact .nil _
  | known hid _ ih =>
      refine .known ?_ ih
      simp only [List.mem_append, List.mem_filter]
      grind
  | @fresh visited between after ids id hnew hnext _ ihnext ihrest =>
      by_cases hid : id ∈ done
      · -- The other exploration stays within the closed list here.
        have hsame := filter_eq_of_subset hdone hnext (hdone id hid)
        rw [List.filter_append, List.filter_cons_of_neg (by simpa using hid), List.filter_nil,
          List.append_nil] at hsame
        rw [hsame] at ihrest
        exact .known (List.mem_append_left _ hid) ihrest
      · refine .fresh ?_ ?_ ihrest
        · simp only [List.mem_append, List.mem_filter]
          grind
        · rw [List.filter_append, List.filter_cons_of_pos (by simpa using hid), List.filter_nil,
            ← List.append_assoc] at ihnext
          exact ihnext

end Explores

end ConfigLowering
