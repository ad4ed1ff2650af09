import Mathlib.Data.List.Basic
import ConfigLowering.Arguments

/-!
# Insertion of arguments

An insertion sets one argument and gives the value it had. Names stay where they
are, and a new name comes last.
-/

namespace ConfigLowering.Arguments

variable {α : Type}

/-! ## Entries -/

theorem lookup_cons_ite {κ : Type} [DecidableEq κ] (name other : κ) (value : α)
    (entries : List (κ × α)) :
    ((other, value) :: entries).lookup name =
      if name = other then some value else entries.lookup name := by
  rw [List.lookup_cons]
  by_cases h : name = other
  · simp [h]
  · simp [h, beq_eq_false_iff_ne.mpr h]

theorem mem_of_lookup {κ : Type} [BEq κ] [LawfulBEq κ] {name : κ} {value : α}
    {entries : List (κ × α)} (h : entries.lookup name = some value) : (name, value) ∈ entries := by
  obtain ⟨before, after, rfl, -⟩ := List.lookup_eq_some_iff.mp h
  simp

theorem insertEntry_displaced (name : String) (value : α)
    (entries : List (String × α)) :
    (insertEntry name value entries).1 = entries.lookup name := by
  induction entries with
  | nil => rfl
  | cons entry entries ih =>
      obtain ⟨other, current⟩ := entry
      by_cases h : other = name
      · simp [insertEntry, h]
      · simp [insertEntry, h, ih, lookup_cons_ite, Ne.symm h]

theorem lookup_insertEntry (name other : String) (value : α)
    (entries : List (String × α)) :
    (insertEntry name value entries).2.lookup other =
      if other = name then some value else entries.lookup other := by
  induction entries with
  | nil => by_cases h : other = name <;> simp [insertEntry, lookup_cons_ite, h]
  | cons entry entries ih =>
      obtain ⟨key, current⟩ := entry
      by_cases hkey : key = name
      · by_cases h : other = name <;> simp [insertEntry, lookup_cons_ite, hkey, h]
      · by_cases h : other = key
        · subst h
          simp [insertEntry, hkey]
        · simp [insertEntry, hkey, lookup_cons_ite, h, ih]

theorem names_insertEntry (name : String) (value : α)
    (entries : List (String × α)) :
    (insertEntry name value entries).2.map Prod.fst =
      if name ∈ entries.map Prod.fst then entries.map Prod.fst
      else entries.map Prod.fst ++ [name] := by
  induction entries with
  | nil => simp [insertEntry]
  | cons entry entries ih =>
      obtain ⟨other, current⟩ := entry
      by_cases h : other = name
      · simp [insertEntry, h]
      · simp only [insertEntry, h, if_false, List.map_cons, ih, List.mem_cons,
          Ne.symm h, false_or]
        split <;> rfl

/-! ## Arguments -/

theorem insert_displaced (arguments : Arguments α) (name : String) (value : α) :
    (arguments.insert name value).1 = arguments.get? name :=
  insertEntry_displaced name value arguments.entries

theorem get?_insert (arguments : Arguments α) (name other : String) (value : α) :
    (arguments.insert name value).2.get? other =
      if other = name then some value else arguments.get? other :=
  lookup_insertEntry name other value arguments.entries

theorem get?_eq_none_iff (arguments : Arguments α) (name : String) :
    arguments.get? name = none ↔ name ∉ arguments.names := by
  rw [get?, List.lookup_eq_none_iff, names, List.mem_map]
  simp only [bne_iff_ne, ne_eq, not_exists, not_and]
  exact forall₂_congr fun _ _ => not_congr eq_comm

theorem names_insert (arguments : Arguments α) (name : String) (value : α) :
    (arguments.insert name value).2.names =
      if name ∈ arguments.names then arguments.names else arguments.names ++ [name] :=
  names_insertEntry name value arguments.entries

theorem nodup_names_insert (arguments : Arguments α) (name : String) (value : α)
    (h : arguments.names.Nodup) : (arguments.insert name value).2.names.Nodup := by
  rw [names_insert]
  split
  · exact h
  · next hname => simpa [List.nodup_append] using ⟨h, fun other hother heq => hname (heq ▸ hother)⟩

theorem insertEntry_of_not_mem {name : String} {entries : List (String × α)}
    (h : name ∉ entries.map Prod.fst) (value : α) :
    (insertEntry name value entries).2 = entries ++ [(name, value)] := by
  induction entries with
  | nil => rfl
  | cons entry entries ih =>
      obtain ⟨other, current⟩ := entry
      obtain ⟨hother, hrest⟩ := not_or.mp (mt List.mem_cons.mpr h)
      simp only [insertEntry, if_neg (Ne.symm hother), ih hrest, List.cons_append]

/-- Without repeated names nothing is replaced. -/
theorem entries_ofList {entries : List (String × α)} (h : (entries.map Prod.fst).Nodup) :
    (ofList entries).entries = entries := by
  have hfold : ∀ (rest done : List (String × α)), ((done ++ rest).map Prod.fst).Nodup →
      (rest.foldl (fun (arguments : Arguments α) entry => (arguments.insert entry.1 entry.2).2)
        ⟨done⟩).entries = done ++ rest := by
    intro rest
    induction rest with
    | nil => exact fun done _ => (List.append_nil done).symm
    | cons entry rest ih =>
        intro done hnodup
        have hfresh : entry.1 ∉ done.map Prod.fst := by
          intro hmem
          rw [List.map_append, List.nodup_append] at hnodup
          exact hnodup.2.2 _ hmem _ List.mem_cons_self rfl
        have hsplit : done ++ entry :: rest = (done ++ [entry]) ++ rest := by simp
        have hinsert : ((⟨done⟩ : Arguments α).insert entry.1 entry.2).2 = ⟨done ++ [entry]⟩ :=
          congrArg mk (insertEntry_of_not_mem hfresh entry.2)
        rw [hsplit] at hnodup ⊢
        rw [List.foldl_cons, hinsert]
        exact ih _ hnodup
  exact hfold entries [] h

theorem mem_values_insert {arguments : Arguments α} {name : String} {value item : α}
    (h : item ∈ (arguments.insert name value).2.values) :
    item = value ∨ item ∈ arguments.values := by
  obtain ⟨entries⟩ := arguments
  simp only [insert, values] at h ⊢
  induction entries with
  | nil => exact .inl (List.mem_singleton.mp h)
  | cons entry entries ih =>
      obtain ⟨other, current⟩ := entry
      by_cases hname : other = name
      · rw [insertEntry, if_pos hname] at h
        obtain rfl | h := List.mem_cons.mp h
        · exact .inl rfl
        · exact .inr (List.mem_cons_of_mem _ h)
      · rw [insertEntry, if_neg hname] at h
        obtain rfl | h := List.mem_cons.mp h
        · exact .inr List.mem_cons_self
        · exact (ih h).imp_right (List.mem_cons_of_mem _)

theorem mem_values_ofList {entries : List (String × α)} {item : α}
    (h : item ∈ (ofList entries).values) : item ∈ entries.map Prod.snd := by
  have hfold : ∀ (entries : List (String × α)) (arguments : Arguments α),
      item ∈ (entries.foldl (fun arguments entry => (arguments.insert entry.1 entry.2).2)
        arguments).values → item ∈ arguments.values ∨ item ∈ entries.map Prod.snd := by
    intro entries
    induction entries with
    | nil => exact fun _ h => .inl h
    | cons entry entries ih =>
        intro arguments h
        obtain h | h := ih _ h
        · obtain rfl | h := mem_values_insert h
          · exact .inr List.mem_cons_self
          · exact .inl h
        · exact .inr (List.mem_cons_of_mem _ h)
  obtain h | h := hfold entries .empty h
  · contradiction
  · exact h

/-! ## Changes in place -/

theorem modifyEntry_eq_map (name : String) (change : α → α)
    {entries : List (String × α)} (h : (entries.map Prod.fst).Nodup) :
    modifyEntry name change entries =
      entries.map fun (other, value) =>
        if other = name then (other, change value) else (other, value) := by
  induction entries with
  | nil => rfl
  | cons entry entries ih =>
      obtain ⟨other, current⟩ := entry
      obtain ⟨hfresh, hrest⟩ := List.nodup_cons.mp h
      by_cases hname : other = name
      · have hothers : ∀ entry ∈ entries, ¬ entry.1 = name := fun entry hentry heq =>
          hfresh (List.mem_map.mpr ⟨entry, hentry, heq.trans hname.symm⟩)
        simp only [modifyEntry, hname, if_true, List.map_cons]
        rw [List.map_congr_left fun entry hentry => if_neg (hothers entry hentry)]
        simp
      · simp [modifyEntry, hname, ih hrest]

theorem names_zip {β : Type} {arguments : Arguments α} {results : List β}
    (h : results.length = arguments.values.length) :
    (⟨arguments.names.zip results⟩ : Arguments β).names = arguments.names := by
  apply List.map_fst_zip
  simp [h, names, values]

theorem names_modify (arguments : Arguments α) (name : String) (change : α → α) :
    (arguments.modify name change).names = arguments.names := by
  obtain ⟨entries⟩ := arguments
  simp only [names, modify]
  induction entries with
  | nil => rfl
  | cons entry entries ih =>
      obtain ⟨other, current⟩ := entry
      rw [modifyEntry]
      split
      · rfl
      · rw [List.map_cons, ih, List.map_cons]

theorem mem_values_modify {arguments : Arguments α} {name : String} {change : α → α} {item : α}
    (h : item ∈ (arguments.modify name change).values) :
    item ∈ arguments.values ∨ ∃ old ∈ arguments.values, item = change old := by
  obtain ⟨entries⟩ := arguments
  simp only [values, modify] at h ⊢
  induction entries with
  | nil => contradiction
  | cons entry entries ih =>
      obtain ⟨other, current⟩ := entry
      rw [modifyEntry] at h
      split at h
      · obtain rfl | h := List.mem_cons.mp h
        · exact .inr ⟨current, List.mem_cons_self, rfl⟩
        · exact .inl (List.mem_cons_of_mem _ h)
      · obtain rfl | h := List.mem_cons.mp h
        · exact .inl List.mem_cons_self
        · obtain h | ⟨old, hold, rfl⟩ := ih h
          · exact .inl (List.mem_cons_of_mem _ h)
          · exact .inr ⟨old, List.mem_cons_of_mem _ hold, rfl⟩

end ConfigLowering.Arguments
