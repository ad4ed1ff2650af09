import ConfigLowering.Text.Identifier

/-!
# Segments of dotted names

Identifiers hold no dot, so a name is cut again where an identifier was put in
front of it with a dot.
-/

namespace ConfigLowering

/-! ## Cutting at dots -/

theorem splitAtDots_ne_nil (characters : List Char) : splitAtDots characters ≠ [] := by
  cases characters with
  | nil => simp [splitAtDots]
  | cons character rest =>
      rw [splitAtDots]
      split
      · simp
      · split <;> simp

theorem splitAtDots_append_dot {head : List Char} (h : '.' ∉ head) (rest : List Char) :
    splitAtDots (head ++ '.' :: rest) = head :: splitAtDots rest := by
  induction head with
  | nil => simp [splitAtDots]
  | cons character head ih =>
      rw [List.mem_cons, not_or] at h
      simp [splitAtDots, Ne.symm h.1, ih h.2]

theorem splitAtDots_of_not_mem {characters : List Char} (h : '.' ∉ characters) :
    splitAtDots characters = [characters] := by
  induction characters with
  | nil => rfl
  | cons character characters ih =>
      rw [List.mem_cons, not_or] at h
      simp [splitAtDots, Ne.symm h.1, ih h.2]

/-- The part before the first dot, and the part behind it if there is a dot. -/
def splitAtFirstDot (name : String) : String × Option String :=
  match name.toList.dropWhile (· != '.') with
  | [] => (name, none)
  | _ :: rest =>
      (String.ofList (name.toList.takeWhile (· != '.')), some (String.ofList rest))

theorem ne_dot_of_not_mem {characters : List Char} (h : '.' ∉ characters) :
    ∀ character ∈ characters, (character != '.') = true := by
  intro character hmem
  simpa using fun heq : character = '.' => h (heq ▸ hmem)

theorem takeWhile_append_dot {head : List Char} (h : '.' ∉ head) (rest : List Char) :
    (head ++ '.' :: rest).takeWhile (· != '.') = head ∧
      (head ++ '.' :: rest).dropWhile (· != '.') = '.' :: rest := by
  have hhead := ne_dot_of_not_mem h
  rw [List.takeWhile_append_of_pos hhead, List.dropWhile_append_of_pos hhead]
  simp

theorem splitAtFirstDot_append {head : String} (h : '.' ∉ head.toList) (rest : String) :
    splitAtFirstDot (head ++ "." ++ rest) = (head, some rest) := by
  have hlist : (head ++ "." ++ rest).toList = head.toList ++ '.' :: rest.toList := by simp
  obtain ⟨htake, hdrop⟩ := takeWhile_append_dot h rest.toList
  rw [splitAtFirstDot, hlist, hdrop]
  simp [htake]

theorem firstSegment_eq (name : String) : firstSegment name = (splitAtFirstDot name).1 := by
  rw [firstSegment, segments, splitAtFirstDot]
  by_cases h : '.' ∈ name.toList
  · obtain ⟨head, rest, hname, hhead⟩ := List.eq_append_cons_of_mem h
    obtain ⟨htake, hdrop⟩ := takeWhile_append_dot hhead rest
    rw [hname, splitAtDots_append_dot hhead, hdrop, htake]
    rfl
  · have hdrop : name.toList.dropWhile (· != '.') = [] := by
      rw [← List.append_nil name.toList,
        List.dropWhile_append_of_pos (ne_dot_of_not_mem h), List.dropWhile_nil]
    rw [splitAtDots_of_not_mem h, hdrop]
    simp

theorem exists_piece_of_mem {characters : List Char} {character : Char}
    (h : character ∈ characters) (hdot : character ≠ '.') :
    ∃ piece ∈ splitAtDots characters, character ∈ piece := by
  induction characters with
  | nil => contradiction
  | cons first rest ih =>
      rw [splitAtDots]
      split
      · next hfirst =>
          obtain rfl | hrest := List.mem_cons.mp h
          · contradiction
          · obtain ⟨piece, hpiece, hmem⟩ := ih hrest
            exact ⟨piece, List.mem_cons_of_mem _ hpiece, hmem⟩
      · cases hpieces : splitAtDots rest with
        | nil => exact absurd hpieces (splitAtDots_ne_nil rest)
        | cons piece pieces =>
            rw [hpieces] at ih
            obtain rfl | hrest := List.mem_cons.mp h
            · exact ⟨_, List.mem_cons_self, List.mem_cons_self⟩
            · obtain ⟨found, hfound, hmem⟩ := ih hrest
              obtain rfl | hfound := List.mem_cons.mp hfound
              · exact ⟨_, List.mem_cons_self, List.mem_cons_of_mem _ hmem⟩
              · exact ⟨found, List.mem_cons_of_mem _ hfound, hmem⟩

/-! ## Joining again -/

theorem segments_ne_nil (path : String) : segments path ≠ [] := by
  simpa [segments] using splitAtDots_ne_nil path.toList

theorem intercalate_splitAtDots (characters : List Char) :
    ['.'].intercalate (splitAtDots characters) = characters := by
  induction characters with
  | nil => rfl
  | cons character rest ih =>
      rw [splitAtDots]
      split
      · next hdot => rw [List.intercalate_cons_of_ne_nil (splitAtDots_ne_nil rest), ih, hdot]; rfl
      · cases hpieces : splitAtDots rest with
        | nil => exact absurd hpieces (splitAtDots_ne_nil rest)
        | cons piece pieces =>
            rw [hpieces] at ih
            cases pieces <;> simpa using ih

theorem intercalate_segments (path : String) : ".".intercalate (segments path) = path := by
  apply String.toList_injective
  rw [String.toList_intercalate, segments, List.map_map]
  simpa [Function.comp_def] using intercalate_splitAtDots path.toList

/-- The last segment stands behind the rest of the path, if there is any. -/
theorem parentPath_append_lastSegment {path : String} (h : 1 < (segments path).length) :
    parentPath path ++ "." ++ lastSegment path = path := by
  have hparent : (segments path).dropLast ≠ [] := by
    rw [← List.length_pos_iff, List.length_dropLast]
    omega
  have hlast : (segments path).dropLast ++ [lastSegment path] = segments path := by
    rw [lastSegment, List.getLastD_eq_getLast?,
      List.getLast?_eq_some_getLast (segments_ne_nil path), Option.getD_some,
      List.dropLast_concat_getLast]
  calc parentPath path ++ "." ++ lastSegment path
      = ".".intercalate ((segments path).dropLast ++ [lastSegment path]) := by
        rw [String.intercalate_append_of_ne_nil hparent (List.cons_ne_nil _ _),
          String.intercalate_singleton, parentPath]
    _ = path := by rw [hlast, intercalate_segments]

/-! ## Identifiers -/

theorem dot_not_mem_of_isIdentifier {name : String} (h : isIdentifier name) :
    '.' ∉ name.toList := by
  intro hdot
  rw [isIdentifier] at h
  cases hname : name.toList with
  | nil => simp [hname] at hdot
  | cons first rest =>
      rw [hname] at h hdot
      obtain ⟨hfirst, hrest⟩ := Bool.and_eq_true_iff.mp h
      obtain rfl | hdot := List.mem_cons.mp hdot
      · exact absurd hfirst (by decide)
      · exact absurd (List.all_eq_true.mp hrest '.' hdot) (by decide)

/-! ## Dotted paths -/

theorem isIdentifier_of_mem_segments {path segment : String} (h : isDottedPath path)
    (hsegment : segment ∈ segments path) : isIdentifier segment :=
  List.all_eq_true.mp h segment hsegment

theorem exists_segment_of_mem {path : String} {character : Char} (h : character ∈ path.toList)
    (hdot : character ≠ '.') : ∃ segment ∈ segments path, character ∈ segment.toList := by
  obtain ⟨piece, hpiece, hmem⟩ := exists_piece_of_mem h hdot
  exact ⟨String.ofList piece, List.mem_map_of_mem hpiece, by rwa [String.toList_ofList]⟩

theorem isIdentifier_lastSegment {path : String} (h : isDottedPath path) :
    isIdentifier (lastSegment path) := by
  apply isIdentifier_of_mem_segments h
  rw [lastSegment, List.getLastD_eq_getLast?,
    List.getLast?_eq_some_getLast (segments_ne_nil path)]
  exact List.getLast_mem _

end ConfigLowering
