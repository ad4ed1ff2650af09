import ConfigLowering.Proofs.Imports.Reserved

/-!
# Fresh names beside imports

A fresh name was free and is bound from then on. So it is none of the names that were taken
before, and neither an alias nor another fresh name can be equal to it later.
-/

namespace ConfigLowering.ImportManager

variable {settings : ImportSettings} {manager : ImportManager} {name base : String}

/-! ## Names that a run gives -/

/-- The fresh name that an operation gives, if that is what it is for. -/
def freshName? (manager : ImportManager) : Operation → Option String
  | .bindFresh base => some (manager.space.bindFresh base).1
  | .add _ | .addModule _ | .bind _ => none

/-- All fresh names that are given in a run. -/
def freshNames (manager : ImportManager) : List Operation → List String
  | [] => []
  | operation :: operations =>
      (manager.freshName? operation).toList ++ (manager.perform operation).freshNames operations

theorem not_contains_of_freshName? {operation : Operation}
    (h : manager.freshName? operation = some name) : ¬ manager.space.contains name := by
  cases operation with
  | bindFresh base =>
      obtain rfl := Option.some.inj h
      exact manager.space.not_contains_freshNameFor base
  | _ => contradiction

theorem contains_of_freshName? {operation : Operation}
    (h : manager.freshName? operation = some name) :
    (manager.perform operation).space.contains name := by
  cases operation with
  | bindFresh base =>
      obtain rfl := Option.some.inj h
      exact (manager.space.contains_add_iff _ _).mpr (.inl rfl)
  | _ => contradiction

/-- A name that a run gives was free when the run started, as nothing is ever unbound. -/
theorem not_contains_of_mem_freshNames {operations : List Operation}
    (h : name ∈ manager.freshNames operations) : ¬ manager.space.contains name := by
  induction operations generalizing manager with
  | nil => simp [freshNames] at h
  | cons operation operations ih =>
      obtain hfirst | hrest := List.mem_append.mp h
      · exact not_contains_of_freshName? (Option.mem_toList.mp hfirst)
      · intro hbound
        exact ih hrest ((manager.extendedBy_perform operation).bound name hbound)

theorem contains_of_mem_freshNames {operations : List Operation}
    (h : name ∈ manager.freshNames operations) :
    (manager.performAll operations).space.contains name := by
  induction operations generalizing manager with
  | nil => simp [freshNames] at h
  | cons operation operations ih =>
      obtain hfirst | hrest := List.mem_append.mp h
      · have hbound := contains_of_freshName? (Option.mem_toList.mp hfirst)
        exact ((manager.perform operation).extendedBy_performAll operations).bound name hbound
      · exact ih hrest

theorem contains_of_mem_bind {operations : List Operation} (h : .bind name ∈ operations) :
    (manager.performAll operations).space.contains name := by
  obtain ⟨first, rest, rfl⟩ := List.append_of_mem h
  have hbound : ((manager.performAll first).perform (.bind name)).space.contains name :=
    (contains_withBound (manager.performAll first) name name).mpr (.inl rfl)
  rw [performAll_append, performAll_cons]
  exact (extendedBy_performAll _ rest).bound name hbound

/-! ## Aliases of a run -/

theorem importsAside_performAll (manager : ImportManager) (operations : List Operation) :
    manager.ImportsAside (manager.performAll operations) := by
  induction operations generalizing manager with
  | nil => exact .refl manager
  | cons operation operations ih =>
      intro name halias
      obtain halias | hfree := ih _ name halias
      · exact manager.importsAside_perform operation name halias
      · exact .inr fun hbound => hfree ((manager.extendedBy_perform operation).bound name hbound)

theorem WellFormed.contains_of_isAlias (h : manager.WellFormed) (halias : manager.isAlias name) :
    manager.space.contains name := by
  obtain ⟨entry, hentry, rfl⟩ := (manager.isAlias_iff name).mp halias
  exact h.bound entry hentry

/-- What is bound and no alias never becomes one. -/
theorem not_isAlias_performAll (hbound : manager.space.contains name)
    (hfree : ¬ manager.isAlias name) (operations : List Operation) :
    ¬ (manager.performAll operations).isAlias name := by
  intro halias
  obtain halias | hnew := manager.importsAside_performAll operations name halias
  · exact hfree halias
  · exact hnew hbound

/-! ## A fresh name in a run -/

/-- A fresh name is never an alias, neither of the imports before it nor of those after it. Nor
is it the head of a bare name that was there, a reserved name, a name that was bound before it,
or any other fresh name of the run. -/
theorem fresh_names_stay_apart {earlier : List Operation} {fresh : String}
    (hmanager : manager = (ofSettings settings).performAll earlier)
    (hfresh : manager.answer (.bindFresh base) = .ok fresh) (later : List Operation) :
    ¬ ((manager.perform (.bindFresh base)).performAll later).isAlias fresh ∧
      (∀ key, manager.IsBare key → firstSegment key.qualname ≠ fresh) ∧
      ¬ settings.Reserves fresh ∧
      .bind fresh ∉ earlier ∧
      fresh ∉ (ofSettings settings).freshNames earlier ∧
      fresh ∉ (manager.perform (.bindFresh base)).freshNames later := by
  have hreachable : Reachable settings manager := reachable_iff_performAll.mpr ⟨earlier, hmanager⟩
  have hname : manager.freshName? (.bindFresh base) = some fresh :=
    congrArg some (Except.ok.inj hfresh)
  have hfree := not_contains_of_freshName? hname
  have hbound := contains_of_freshName? hname
  refine ⟨not_isAlias_performAll hbound (fun halias => ?_) later, ?_, ?_, ?_, ?_, ?_⟩
  · -- Binding a name adds no import.
    exact hfree (hreachable.wellFormed.contains_of_isAlias halias)
  · rintro key hbare rfl
    exact hfree (hreachable.contains_of_isBare hbare)
  · exact fun hreserved => hfree (hreachable.keepsReserved.bound fresh hreserved)
  · rw [hmanager] at hfree
    exact fun hbind => hfree (contains_of_mem_bind hbind)
  · rw [hmanager] at hfree
    exact fun hgiven => hfree (contains_of_mem_freshNames hgiven)
  · exact fun hgiven => not_contains_of_mem_freshNames hgiven hbound

/-- A bare name, a name of a naming pass and a fresh name come first. -/
def earlierOperations : List Operation :=
  [.add (.builtin "layers.build"), .bind "blocks", .bindFresh "blocks"]

def laterOperations : List Operation :=
  [.add (.classType "models.layers" "Encoder"), .addModule "vendor.layers_2", .bindFresh "layers"]

theorem fresh_names_stay_apart_layers :
    ((ofSettings .default).performAll earlierOperations).answer (.bindFresh "layers") =
        .ok "layers_2" ∧
      ¬ ((((ofSettings .default).performAll earlierOperations).perform
        (.bindFresh "layers")).performAll laterOperations).isAlias "layers_2" ∧
      ((ofSettings .default).performAll earlierOperations).IsBare ⟨"builtins", "layers.build"⟩ ∧
      firstSegment "layers.build" ≠ "layers_2" ∧
      "layers_2" ∉ (ofSettings .default).freshNames earlierOperations ∧
      "layers_2" ∉ (((ofSettings .default).performAll earlierOperations).perform
        (.bindFresh "layers")).freshNames laterOperations := by
  have hfresh : ((ofSettings .default).performAll earlierOperations).answer
      (.bindFresh "layers") = .ok "layers_2" := by decide +kernel
  have hbare : ((ofSettings .default).performAll earlierOperations).IsBare
      ⟨"builtins", "layers.build"⟩ := ⟨rfl, by decide +kernel⟩
  obtain ⟨halias, hheads, -, -, hearlier, hlater⟩ :=
    fresh_names_stay_apart rfl hfresh laterOperations
  exact ⟨hfresh, halias, hbare, hheads _ hbare, hearlier, hlater⟩

end ConfigLowering.ImportManager
