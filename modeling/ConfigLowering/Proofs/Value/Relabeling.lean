import ConfigLowering.Proofs.Value.Enclosing
import ConfigLowering.Proofs.Value.Objects

/-!
# Other identities

Relabeling changes the identities of objects place by place and nothing else, so only the
identities that occur matter.
-/

namespace ConfigLowering.Value

/-! ## Children -/

theorem objectsOfItems_eq (items : List Value) : objectsOfItems items = items.flatMap objects := by
  induction items with
  | nil => rfl
  | cons item items ih => rw [objectsOfItems, ih, List.flatMap_cons]

theorem objectsOfEntries_eq (entries : List (String × Value)) :
    objectsOfEntries entries = (entries.map Prod.snd).flatMap objects := by
  induction entries with
  | nil => rfl
  | cons entry entries ih => rw [objectsOfEntries, ih, List.map_cons, List.flatMap_cons]

/-- The object that a value is, and those inside it. -/
theorem objects_eq (value : Value) :
    value.objects = value.codeId?.toList ++ value.children.flatMap objects := by
  cases value <;> simp [objects, codeId?, children, objectsOfItems_eq, objectsOfEntries_eq]

theorem exists_encloses_of_mem_objects {value : Value} {id : CodeId} (h : id ∈ value.objects) :
    ∃ part, value.Encloses part ∧ part.codeId? = some id := by
  induction value using induction_children with
  | step value ih =>
      rw [objects_eq, List.mem_append, Option.mem_toList, List.mem_flatMap] at h
      obtain hcode | ⟨child, hchild, hid⟩ := h
      · exact ⟨value, .refl, hcode⟩
      · obtain ⟨part, hpart, hcode⟩ := ih child hchild hid
        exact ⟨part, .head hchild hpart, hcode⟩

variable (change : CodeId → CodeId)

theorem relabelItems_eq (items : List Value) :
    relabelItems change items = items.map (relabel change) := by
  induction items with
  | nil => rfl
  | cons item items ih => rw [relabelItems, ih, List.map_cons]

theorem relabelEntries_eq (entries : List (String × Value)) :
    relabelEntries change entries =
      (entries.map Prod.fst).zip ((entries.map Prod.snd).map (relabel change)) := by
  induction entries with
  | nil => rfl
  | cons entry entries ih => simp [relabelEntries, ih]

theorem relabel_eq_rebuild (value : Value) (id : CodeId)
    (hid : ∀ code, value.codeId? = some code → id = change code) :
    value.relabel change = value.rebuild id (value.children.map (relabel change)) := by
  cases value <;>
    simp_all [relabel, rebuild, children, codeId?, relabelItems_eq, relabelEntries_eq]

theorem codeId?_rebuild (value : Value) (id : CodeId) (results : List Value) :
    (value.rebuild id results).codeId? = value.codeId?.map fun _ => id := by
  cases value <;> rfl

/-! ## Identities -/

theorem relabel_congr {first second : CodeId → CodeId} (value : Value)
    (h : ∀ id ∈ value.objects, first id = second id) :
    value.relabel first = value.relabel second := by
  induction value using induction_children with
  | step value ih =>
      rw [objects_eq, List.forall_mem_append] at h
      obtain ⟨hown, hchildren⟩ := h
      have hitems : value.children.map (relabel first) = value.children.map (relabel second) :=
        List.map_congr_left fun child hchild => ih child hchild fun id hid =>
          hchildren id (List.mem_flatMap_of_mem hchild hid)
      -- A value that is no object can be rebuilt with any identity.
      let id := first (value.codeId?.getD ⟨0⟩)
      rw [relabel_eq_rebuild first value id, relabel_eq_rebuild second value id, hitems]
      · intro code hcode
        rw [← hown code (by simp [hcode])]
        simp [id, hcode]
      · intro code hcode
        simp [id, hcode]

theorem objects_relabel (value : Value) :
    (value.relabel change).objects = value.objects.map change := by
  induction value using induction_children with
  | step value ih =>
      rw [relabel_eq_rebuild change value (change (value.codeId?.getD ⟨0⟩))
        fun code hcode => by simp [hcode]]
      rw [objects_eq, objects_eq value, codeId?_rebuild, children_rebuild _ (by simp),
        List.map_append, List.map_flatMap, List.flatMap_map]
      congr 1
      · cases value.codeId? <;> rfl
      · exact List.flatMap_congr ih

mutual

theorem relabel_relabel (first second : CodeId → CodeId) (value : Value) :
    (value.relabel first).relabel second = value.relabel (second ∘ first) := by
  cases value with
  | list items => simp [relabel, relabelItems_relabelItems first second items]
  | tuple items => simp [relabel, relabelItems_relabelItems first second items]
  | dict entries => simp [relabel, relabelEntries_relabelEntries first second entries]
  | call id callee positional named history =>
      simp [relabel, relabelItems_relabelItems first second positional,
        relabelEntries_relabelEntries first second named]
  | tagged id tagNames item => simp [relabel, relabel_relabel first second item]
  | _ => rfl

theorem relabelItems_relabelItems (first second : CodeId → CodeId) (items : List Value) :
    relabelItems second (relabelItems first items) = relabelItems (second ∘ first) items := by
  cases items with
  | nil => rfl
  | cons item items =>
      simp [relabelItems, relabel_relabel first second item,
        relabelItems_relabelItems first second items]

theorem relabelEntries_relabelEntries (first second : CodeId → CodeId)
    (entries : List (String × Value)) :
    relabelEntries second (relabelEntries first entries) =
      relabelEntries (second ∘ first) entries := by
  cases entries with
  | nil => rfl
  | cons entry entries =>
      obtain ⟨name, item⟩ := entry
      simp [relabelEntries, relabel_relabel first second item,
        relabelEntries_relabelEntries first second entries]

end

theorem contents_relabel (value : Value) : (value.relabel change).contents = value.contents :=
  value.relabel_relabel change _

end ConfigLowering.Value
