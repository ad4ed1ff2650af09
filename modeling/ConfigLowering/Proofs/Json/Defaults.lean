import Mathlib.Data.List.Forall2
import ConfigLowering.Proofs.Json.Nesting

/-!
# Defaults spelled out

A tree spells out another one if it differs from it only by fields that hold their defaults and
that the other one leaves out. The rules of a record say which fields these are, and what it
means for the contents of each field to be spelled out.
-/

namespace ConfigLowering.Json

/-- A field by its name, what it holds where it is left out, and which contents of it spell out
which. -/
structure FieldRule where
  name : String
  default : Option Json
  spells : Json → Json → Prop

/-- All that an object holds under a name. -/
def contents (fields : List (String × Json)) (name : String) : List Json :=
  (fields.filter (·.1 = name)).map Prod.snd

/-- The same contents up to what is spelled out in them, or only the default. -/
inductive FieldRule.Matches (rule : FieldRule) : List Json → List Json → Prop
  | kept {items items' : List Json} :
      List.Forall₂ rule.spells items items' → rule.Matches items items'
  | written {json : Json} : rule.default = some json → rule.Matches [] [json]

/-- An array of fields in their order, from which the last ones may be missing. -/
inductive SpelledRow : List FieldRule → List Json → List Json → Prop
  | nil (rules : List FieldRule) : SpelledRow rules [] []
  | kept {rule : FieldRule} {rules : List FieldRule} {json json' : Json}
      {items items' : List Json} : rule.spells json json' → SpelledRow rules items items' →
      SpelledRow (rule :: rules) (json :: items) (json' :: items')
  | written {rule : FieldRule} {rules : List FieldRule} {json : Json} {items : List Json} :
      rule.default = some json → SpelledRow rules [] items →
      SpelledRow (rule :: rules) [] (json :: items)

/-- A record stands as an object, in which only the fields of the rules matter, or as an array
of its fields. -/
inductive SpelledRecord (rules : List FieldRule) : Json → Json → Prop
  | same (json : Json) : SpelledRecord rules json json
  | object {fields fields' : List (String × Json)} :
      (∀ rule ∈ rules, rule.Matches (contents fields rule.name) (contents fields' rule.name)) →
      SpelledRecord rules (object fields) (object fields')
  | array {items items' : List Json} :
      SpelledRow rules items items' → SpelledRecord rules (array items) (array items')

inductive SpelledList (spells : Json → Json → Prop) : Json → Json → Prop
  | same (json : Json) : SpelledList spells json json
  | items {items items' : List Json} :
      List.Forall₂ spells items items' → SpelledList spells (array items) (array items')

inductive SpelledEntry (spells : Json → Json → Prop) : Json → Json → Prop
  | same (json : Json) : SpelledEntry spells json json
  | value {name json json' : Json} :
      spells json json' → SpelledEntry spells (array [name, json]) (array [name, json'])

/-- A variant is an object of one field, and its payload may spell out the other one's. -/
inductive SpelledVariant (alternatives : List (String × (Json → Json → Prop))) :
    Json → Json → Prop
  | same (json : Json) : SpelledVariant alternatives json json
  | payload {name : String} {spells : Json → Json → Prop} {json json' : Json} :
      (name, spells) ∈ alternatives → spells json json' →
      SpelledVariant alternatives (object [(name, json)]) (object [(name, json')])

/-! ## What a record holds -/

/-- What two trees hold for a field. -/
inductive FieldRule.Agrees (rule : FieldRule) : Option Json → Option Json → Prop
  | missing : rule.Agrees none none
  | kept {json json' : Json} : rule.spells json json' → rule.Agrees (some json) (some json')
  | written {json : Json} : rule.default = some json → rule.Agrees none (some json)

inductive FieldsAgree : List FieldRule → List (Option Json) → List (Option Json) → Prop
  | nil : FieldsAgree [] [] []
  | cons {rule : FieldRule} {rules : List FieldRule} {field field' : Option Json}
      {fields fields' : List (Option Json)} : rule.Agrees field field' →
      FieldsAgree rules fields fields' →
      FieldsAgree (rule :: rules) (field :: fields) (field' :: fields')

variable {rule : FieldRule} {rules : List FieldRule} {json json' : Json} {levels : Nat}

theorem uniqueField_eq (fields : List (String × Json)) (name : String) :
    uniqueField fields name =
      match contents fields name with
      | [] => some none
      | [json] => some (some json)
      | _ => none := by
  rw [uniqueField, contents]
  generalize fields.filter (·.1 = name) = found
  rcases found with _ | ⟨_, _ | _⟩ <;> rfl

theorem FieldRule.Matches.uniqueField {fields fields' : List (String × Json)}
    (h : rule.Matches (contents fields rule.name) (contents fields' rule.name)) :
    uniqueField fields rule.name = none ∧ uniqueField fields' rule.name = none ∨
      ∃ field field', uniqueField fields rule.name = some field ∧
        uniqueField fields' rule.name = some field' ∧ rule.Agrees field field' := by
  rw [uniqueField_eq, uniqueField_eq]
  generalize contents fields rule.name = items at h ⊢
  generalize contents fields' rule.name = items' at h ⊢
  cases h with
  | written hdefault => exact .inr ⟨none, _, rfl, rfl, .written hdefault⟩
  | kept hitems =>
      cases hitems with
      | nil => exact .inr ⟨none, none, rfl, rfl, .missing⟩
      | cons hspells hrest =>
          cases hrest with
          | nil => exact .inr ⟨_, _, rfl, rfl, .kept hspells⟩
          | cons => exact .inl ⟨rfl, rfl⟩

theorem fieldValues_object {fields fields' : List (String × Json)}
    (h : ∀ rule ∈ rules, rule.Matches (contents fields rule.name) (contents fields' rule.name)) :
    fieldValues (rules.map FieldRule.name) (object fields) = none ∧
        fieldValues (rules.map FieldRule.name) (object fields') = none ∨
      ∃ found found', fieldValues (rules.map FieldRule.name) (object fields) = some found ∧
        fieldValues (rules.map FieldRule.name) (object fields') = some found' ∧
        FieldsAgree rules found found' := by
  simp only [fieldValues]
  induction rules with
  | nil => exact .inr ⟨[], [], rfl, rfl, .nil⟩
  | cons rule rules ih =>
      obtain ⟨hfirst, hrest⟩ := List.forall_mem_cons.mp h
      simp only [List.map_cons, List.mapM_cons]
      obtain ⟨hnone, hnone'⟩ | ⟨field, field', hfield, hfield', hagrees⟩ := hfirst.uniqueField
      · rw [hnone, hnone']
        exact .inl ⟨rfl, rfl⟩
      · rw [hfield, hfield']
        obtain ⟨hnone, hnone'⟩ | ⟨found, found', hfound, hfound', hall⟩ := ih hrest
        · rw [hnone, hnone']
          exact .inl ⟨rfl, rfl⟩
        · rw [hfound, hfound']
          exact .inr ⟨_, _, rfl, rfl, .cons hagrees hall⟩

theorem fieldsAgree_missing (rules : List FieldRule) :
    FieldsAgree rules (List.replicate rules.length none)
      (List.replicate rules.length none) := by
  induction rules with
  | nil => exact .nil
  | cons rule rules ih => exact .cons .missing ih

/-- What an array holds for fields, none for those behind its end. -/
def rowValues (items : List Json) (count : Nat) : List (Option Json) :=
  items.map some ++ List.replicate (count - items.length) none

theorem SpelledRow.agrees {items items' : List Json} (h : SpelledRow rules items items') :
    items.length ≤ rules.length ∧ items'.length ≤ rules.length ∧
      FieldsAgree rules (rowValues items rules.length) (rowValues items' rules.length) := by
  induction h with
  | nil rules => exact ⟨Nat.zero_le _, Nat.zero_le _, fieldsAgree_missing rules⟩
  | kept hspells _ ih =>
      refine ⟨Nat.succ_le_succ ih.1, Nat.succ_le_succ ih.2.1, ?_⟩
      simpa [rowValues] using FieldsAgree.cons (.kept hspells) ih.2.2
  | written hdefault _ ih =>
      refine ⟨Nat.zero_le _, Nat.succ_le_succ ih.2.1, ?_⟩
      simpa [rowValues, List.replicate_succ] using FieldsAgree.cons (.written hdefault) ih.2.2

/-- A record and one that spells it out hold the same, or what agrees field by field. -/
theorem SpelledRecord.fieldValues_cases (h : SpelledRecord rules json json') :
    fieldValues (rules.map FieldRule.name) json = fieldValues (rules.map FieldRule.name) json' ∨
      ∃ fields fields', fieldValues (rules.map FieldRule.name) json = some fields ∧
        fieldValues (rules.map FieldRule.name) json' = some fields' ∧
        FieldsAgree rules fields fields' := by
  cases h with
  | same => exact .inl rfl
  | object hfields =>
      exact (fieldValues_object hfields).imp_left fun ⟨hnone, hnone'⟩ => hnone.trans hnone'.symm
  | @array items items' hrow =>
      obtain ⟨hlength, hlength', hagree⟩ := hrow.agrees
      refine .inr ⟨_, _, ?_, ?_, hagree⟩
      · rw [fieldValues, List.length_map, if_pos hlength, rowValues]
      · rw [fieldValues, List.length_map, if_pos hlength', rowValues]

theorem SpelledRecord.record?_cases (h : SpelledRecord rules json json') (levels : Nat) :
    json.record? (rules.map FieldRule.name) levels =
        json'.record? (rules.map FieldRule.name) levels ∨
      ∃ below fields fields', levels = below + 1 ∧
        json.record? (rules.map FieldRule.name) levels = some (below, fields) ∧
        json'.record? (rules.map FieldRule.name) levels = some (below, fields') ∧
        fieldValues (rules.map FieldRule.name) json' = some fields' ∧
        FieldsAgree rules fields fields' := by
  cases levels with
  | zero => exact .inl rfl
  | succ below =>
      obtain hsame | ⟨fields, fields', hfields, hfields', hagree⟩ := h.fieldValues_cases
      · exact .inl (congrArg (Option.map (below, ·)) hsame)
      · refine .inr ⟨below, fields, fields', rfl, ?_, ?_, hfields', hagree⟩
        · rw [record?, hfields, Option.map_some]
        · rw [record?, hfields', Option.map_some]

/-! ## Levels that suffice -/

theorem mem_of_uniqueField {fields : List (String × Json)} {name : String}
    (h : uniqueField fields name = some (some json)) : ∃ field ∈ fields, field.2 = json := by
  rw [uniqueField_eq] at h
  have hcontents : json ∈ contents fields name := by
    split at h
    · exact nomatch Option.some.inj h
    · next hfound =>
        rw [hfound, Option.some.inj (Option.some.inj h)]
        exact List.mem_singleton_self json
    · exact nomatch h
  obtain ⟨field, hfield, rfl⟩ := List.mem_map.mp hcontents
  exact ⟨field, List.mem_of_mem_filter hfield, rfl⟩

theorem mem_of_mapM_uniqueField {fields : List (String × Json)} {names : List String}
    {found : List (Option Json)} (h : names.mapM (uniqueField fields) = some found)
    (hjson : some json ∈ found) : ∃ field ∈ fields, field.2 = json := by
  induction names generalizing found with
  | nil =>
      obtain rfl : [] = found := Option.some.inj h
      contradiction
  | cons name names ih =>
      simp only [List.mapM_cons, Option.bind_eq_bind, Option.bind_eq_some_iff] at h
      obtain ⟨first, hfirst, rest, hrest, hfound⟩ := h
      obtain rfl : first :: rest = found := Option.some.inj hfound
      obtain rfl | hjson := List.mem_cons.mp hjson
      · exact mem_of_uniqueField hfirst
      · exact ih hrest hjson

/-- The fields of a record nest less deeply than the record. -/
theorem depth_le_of_fieldValues {names : List String} {found : List (Option Json)} {below : Nat}
    {whole : Json} (h : fieldValues names whole = some found) (hdepth : whole.depth ≤ below + 1)
    (hjson : some json ∈ found) : json.depth ≤ below := by
  cases whole with
  | object fields =>
      obtain ⟨_, hbelow, hfields⟩ := depth_object_le_iff.mp hdepth
      obtain rfl := Nat.succ.inj hbelow
      obtain ⟨field, hfield, rfl⟩ := mem_of_mapM_uniqueField h hjson
      exact hfields field hfield
  | array items =>
      obtain ⟨_, hbelow, hitems⟩ := depth_array_le_iff.mp hdepth
      obtain rfl := Nat.succ.inj hbelow
      rw [fieldValues] at h
      split at h
      · obtain rfl := Option.some.inj h
        exact hitems json (by simpa using hjson)
      · contradiction
  | _ => contradiction

/-- There are levels to spare, or the tree nests no deeper than there are levels. -/
def Fits (spare : Nat → Prop) (levels : Nat) (json : Json) : Prop :=
  spare levels ∨ json.depth ≤ levels

variable {spare : Nat → Prop} {below : Nat}

theorem Fits.mono {less : Nat → Prop} (h : Fits spare levels json)
    (hspare : spare levels → less levels) : Fits less levels json :=
  h.imp_left hspare

theorem Fits.field {names : List String} {found : List (Option Json)}
    (h : Fits spare (below + 1) json) (hfound : fieldValues names json = some found)
    (value : Json) (hvalue : some value ∈ found) :
    Fits (fun levels => spare (levels + 1)) below value :=
  h.imp_right fun hdepth => depth_le_of_fieldValues hfound hdepth hvalue

theorem Fits.item {items : List Json} (h : Fits spare (below + 1) (array items))
    (hjson : json ∈ items) : Fits (fun levels => spare (levels + 1)) below json := by
  refine h.imp_right fun hdepth => ?_
  obtain ⟨_, hbelow, hitems⟩ := depth_array_le_iff.mp hdepth
  obtain rfl := Nat.succ.inj hbelow
  exact hitems json hjson

/-! ## Reading what is spelled out -/

variable {α : Type} {spells : Json → Json → Prop}

theorem mapM_spelled {decode decode' : Json → Option α} {items items' : List Json}
    (h : List.Forall₂ spells items items')
    (hdecode : ∀ json json', json' ∈ items' → spells json json' → decode json = decode' json') :
    items.mapM decode = items'.mapM decode' := by
  induction h with
  | nil => rfl
  | cons hspells _ ih =>
      have hfirst := hdecode _ _ List.mem_cons_self hspells
      have hrest := ih fun json json' hjson' => hdecode json json' (List.mem_cons_of_mem _ hjson')
      rw [List.mapM_cons, List.mapM_cons, hfirst, hrest]

theorem SpelledEntry.pair?_eq {decode : Json → Option α} (h : SpelledEntry spells json json')
    (hdecode : ∀ json json', spells json json' → decode json = decode json') :
    pair? decode json = pair? decode json' := by
  cases h with
  | same => rfl
  | @value name json json' hspells =>
      cases name with
      | string name => rw [pair?, pair?, hdecode json json' hspells]
      | _ => rfl

/-- A list field, which is empty by default. An empty list that is written out takes a level, one
that is left out does not, so there has to be one to spare. -/
theorem FieldRule.Agrees.listField_eq (decode : Nat → Json → Option α) {name : String}
    {field field' : Option Json}
    (h : Agrees ⟨name, some (.array []), SpelledList spells⟩ field field')
    (hfits : ∀ value, field' = some value → Fits spare levels value)
    (hspare : spare levels → 0 < levels)
    (hdecode : ∀ below json json', levels = below + 1 →
      Fits (fun levels => spare (levels + 1)) below json' → spells json json' →
        decode below json = decode below json') :
    listField levels decode field = listField levels decode field' := by
  cases h with
  | missing => rfl
  | kept hspells =>
      cases hspells with
      | same => rfl
      | items hitems =>
          cases levels with
          | zero => rfl
          | succ below =>
              refine mapM_spelled hitems fun json json' hjson' hspells => ?_
              exact hdecode below json json' rfl ((hfits _ rfl).item hjson') hspells
  | written hdefault =>
      obtain rfl := Option.some.inj hdefault
      have hroom : 0 < levels :=
        (hfits _ rfl).elim hspare fun hdepth => Nat.lt_of_lt_of_le Nat.zero_lt_one hdepth
      cases levels with
      | zero => exact absurd hroom (Nat.lt_irrefl 0)
      | succ below => rfl

end ConfigLowering.Json
