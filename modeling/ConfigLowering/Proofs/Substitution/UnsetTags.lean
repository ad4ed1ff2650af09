import ConfigLowering.Proofs.Registration.Completeness
import ConfigLowering.Proofs.Substitution.Tagging
import ConfigLowering.Proofs.Text.Bytes
import ConfigLowering.Proofs.Transformer.Failure

/-!
# Tags on unset fields

Tags need an argument to be attached to. A config node whose symbols all have names fails for
the least field that has tags and no argument, and for no other reason.
-/

namespace ConfigLowering

/-! ## Fields without argument -/

namespace Buildable

variable {buildable : Buildable}

/-- The field carries a tag and is none of the arguments. -/
def Lacks (buildable : Buildable) (field : String) : Prop :=
  (∃ tag, buildable.hasTag field tag) ∧ field ∉ buildable.arguments.names

/-- The first such field in the order of their bytes. -/
def LacksFirst (buildable : Buildable) (field : String) : Prop :=
  buildable.Lacks field ∧
    ∀ other, buildable.Lacks other → other = field ∨ utf8Bytes field < utf8Bytes other

theorem exists_hasTag_iff (h : buildable.WellFormed) (field : String) :
    (∃ tag, buildable.hasTag field tag) ↔ field ∈ buildable.tags.toList.map Prod.fst := by
  simp only [hasTag, tagsOf, Std.ExtTreeMap.getD_eq_getD_getElem?, List.mem_map, Prod.exists,
    Std.ExtTreeMap.mem_toList_iff_getElem?_eq_some]
  cases hfield : buildable.tags[field]? with
  | none =>
      simp only [Option.getD_none]
      constructor
      · rintro ⟨tag, htag⟩
        simp at htag
      · rintro ⟨other, tags, htags, rfl⟩
        rw [hfield] at htags
        contradiction
  | some tags =>
      simp only [Option.getD_some]
      constructor
      · intro _
        exact ⟨field, tags, hfield, rfl⟩
      · intro _
        have hnonempty := h.tags_nonempty field tags hfield
        rw [Ne, Std.ExtTreeSet.eq_empty_iff_forall_not_mem, not_forall_not] at hnonempty
        obtain ⟨tag, htag⟩ := hnonempty
        exact ⟨tag, htag⟩

theorem lacks_iff (h : buildable.WellFormed) (field : String) :
    buildable.Lacks field ↔
      field ∈ buildable.tags.toList.map Prod.fst ∧ field ∉ buildable.arguments.names := by
  rw [Lacks, exists_hasTag_iff h]

/-- The fields with tags are listed in order, so the first that lacks an argument is least. -/
theorem lacksFirst_of_toList (h : buildable.WellFormed) {field : String} {tags : TagSet}
    {earlier later : List (String × TagSet)}
    (hlist : buildable.tags.toList = earlier ++ (field, tags) :: later)
    (hearlier : ∀ entry ∈ earlier, entry.1 ∈ buildable.arguments.names)
    (hfield : field ∉ buildable.arguments.names) : buildable.LacksFirst field := by
  have hordered : buildable.tags.toList.Pairwise fun first second =>
      compare first.1 second.1 = .lt := Std.ExtTreeMap.ordered_keys_toList
  rw [hlist, List.pairwise_append, List.pairwise_cons] at hordered
  refine ⟨(lacks_iff h field).mpr ⟨by simp [hlist], hfield⟩, fun other hother => ?_⟩
  obtain ⟨hmem, hlacks⟩ := (lacks_iff h other).mp hother
  rw [hlist, List.map_append, List.mem_append, List.map_cons, List.mem_cons] at hmem
  rcases hmem with hmem | heq | hmem
  · obtain ⟨entry, hentry, rfl⟩ := List.mem_map.mp hmem
    exact absurd (hearlier entry hentry) hlacks
  · exact .inl heq
  · obtain ⟨entry, hentry, rfl⟩ := List.mem_map.mp hmem
    exact .inr (utf8Bytes_lt (hordered.2.1.1 entry hentry))

end Buildable

namespace Substitution

variable {buildable : Buildable} {before after : State} {history : Buildable → History}
  {error : LoweringError}

/-! ## Known names -/

theorem nameOf_of_knows {symbol : Symbol} (h : before.context.Knows symbol) :
    ∃ name, (nameOf symbol).Yields before name before := by
  obtain ⟨name, hadd⟩ := ImportManager.exists_add_of_knows h
  exact ⟨name, (yields_nameOf symbol).mpr ⟨before.context, hadd, rfl⟩⟩

theorem mapM_nameOf_of_knows {symbols : List Symbol} (h : before.context.KnowsAll symbols) :
    ∃ names, (symbols.mapM nameOf).Yields before names before := by
  induction symbols with
  | nil => exact ⟨[], (TransformM.yields_pure []).mpr ⟨rfl, rfl⟩⟩
  | cons symbol symbols ih =>
      obtain ⟨hsymbol, hsymbols⟩ := List.forall_mem_cons.mp h
      obtain ⟨name, hname⟩ := nameOf_of_knows hsymbol
      obtain ⟨names, hnames⟩ := ih hsymbols
      refine ⟨name :: names, ?_⟩
      simp only [List.mapM_cons, TransformM.yields_bind, TransformM.yields_pure]
      exact ⟨name, before, hname, names, before, hnames, rfl, rfl⟩

/-! ## Attaching tags -/

theorem mem_names_of_attachTags {arguments attached : Arguments Value} {field : String}
    {tags : TagSet} (h : (attachTags buildable arguments field tags).Yields before attached after) :
    field ∈ arguments.names := by
  by_contra hfield
  rw [attachTags, (arguments.get?_eq_none_iff field).mpr hfield] at h
  simp at h

theorem raises_attachTags {arguments : Arguments Value} {field : String} {tags : TagSet}
    (hknows : before.context.KnowsAll tags.toList)
    (h : (attachTags buildable arguments field tags).Raises before error) :
    field ∉ arguments.names ∧
      error = .taggedFieldNotSet field buildable.display arguments.names before.path := by
  rw [← arguments.get?_eq_none_iff]
  unfold attachTags at h
  cases hfield : arguments.get? field with
  | none =>
      rw [hfield] at h
      exact ⟨rfl, (TransformM.raises_throw _).mp h⟩
  | some value =>
      obtain ⟨names, hnames⟩ := mapM_nameOf_of_knows hknows
      rw [hfield] at h
      simp only [TransformM.raises_bind, TransformM.raises_freshCode, TransformM.raises_pure,
        and_false, exists_false, or_false] at h
      exact absurd h hnames.not_raises

/-- The state that attaching known tags leaves differs in the next identity only. -/
theorem attachTags_of_knows {arguments attached : Arguments Value} {field : String} {tags : TagSet}
    (hknows : before.context.KnowsAll tags.toList)
    (h : (attachTags buildable arguments field tags).Yields before attached after) :
    attached.names = arguments.names ∧ after.context = before.context ∧
      after.path = before.path := by
  unfold attachTags at h
  split at h
  · simp at h
  · obtain ⟨names, hnames⟩ := mapM_nameOf_of_knows hknows
    obtain ⟨found, between, hfound, hwrapped⟩ := h.of_bind
    obtain ⟨fresh, _, hfresh, hpure⟩ := hwrapped.of_bind
    obtain ⟨rfl, rfl⟩ := TransformM.yields_freshCode.mp hfresh
    obtain ⟨rfl, rfl⟩ := hpure.of_pure
    obtain ⟨-, rfl⟩ := hnames.unique hfound
    exact ⟨Arguments.names_modify _ _ _, rfl, rfl⟩

theorem mem_names_of_foldlM {fields : List (String × TagSet)} {arguments attached : Arguments Value}
    (h : (fields.foldlM (fun arguments (field, tags) =>
      attachTags buildable arguments field tags) arguments).Yields before attached after) :
    ∀ entry ∈ fields, entry.1 ∈ arguments.names := by
  induction fields generalizing arguments before with
  | nil => exact nofun
  | cons entry fields ih =>
      rw [List.foldlM_cons] at h
      obtain ⟨first, between, hfirst, hrest⟩ := h.of_bind
      obtain ⟨imports, names, -, -, hattached, -⟩ := attachTags_spec hfirst
      have hothers := ih hrest
      rw [hattached, Arguments.names_modify] at hothers
      exact List.forall_mem_cons.mpr ⟨mem_names_of_attachTags hfirst, hothers⟩

theorem raises_foldlM {fields : List (String × TagSet)} {arguments : Arguments Value}
    (hknows : ∀ entry ∈ fields, before.context.KnowsAll entry.2.toList)
    (h : (fields.foldlM (fun arguments (field, tags) =>
      attachTags buildable arguments field tags) arguments).Raises before error) :
    ∃ earlier field tags later, fields = earlier ++ (field, tags) :: later ∧
      (∀ entry ∈ earlier, entry.1 ∈ arguments.names) ∧ field ∉ arguments.names ∧
      error = .taggedFieldNotSet field buildable.display arguments.names before.path := by
  induction fields generalizing arguments before with
  | nil => simp at h
  | cons entry fields ih =>
      obtain ⟨field, tags⟩ := entry
      obtain ⟨htags, hothers⟩ := List.forall_mem_cons.mp hknows
      rw [List.foldlM_cons, TransformM.raises_bind] at h
      obtain hfirst | ⟨attached, between, hfirst, hrest⟩ := h
      · obtain ⟨hfield, herror⟩ := raises_attachTags htags hfirst
        exact ⟨[], field, tags, fields, rfl, nofun, hfield, herror⟩
      · obtain ⟨hnames, hcontext, hpath⟩ := attachTags_of_knows htags hfirst
        obtain ⟨earlier, other, tags', later, rfl, hearlier, hother, herror⟩ :=
          ih (hcontext ▸ hothers) hrest
        rw [hnames] at hearlier hother herror
        rw [hpath] at herror
        refine ⟨(field, tags) :: earlier, other, tags', later, rfl, ?_, hother, herror⟩
        exact List.forall_mem_cons.mpr ⟨mem_names_of_attachTags hfirst, hearlier⟩

/-! ## Finishing nodes -/

theorem not_lacks_of_finishNode (hbuildable : buildable.WellFormed) {callee : String}
    {arguments : Arguments Value} {result : Value}
    (hnames : arguments.names = buildable.arguments.names)
    (h : (finishNode history buildable callee arguments).Yields before result after)
    (field : String) : ¬ buildable.Lacks field := by
  rw [Buildable.lacks_iff hbuildable, List.mem_map]
  rintro ⟨⟨entry, hentry, rfl⟩, hlacks⟩
  obtain ⟨attached, between, hattached, -⟩ := h.of_bind
  exact hlacks (hnames ▸ mem_names_of_foldlM hattached entry hentry)

theorem raises_finishNode (hbuildable : buildable.WellFormed) {callee : String}
    {arguments : Arguments Value} (hnames : arguments.names = buildable.arguments.names)
    (hknows : before.context.KnowsAll buildable.allTags)
    (h : (finishNode history buildable callee arguments).Raises before error) :
    ∃ field, buildable.LacksFirst field ∧
      error = .taggedFieldNotSet field buildable.display buildable.arguments.names before.path := by
  unfold finishNode at h
  simp only [TransformM.raises_bind, TransformM.raises_freshCode, TransformM.raises_pure,
    and_false, exists_false, or_false] at h
  have htags : ∀ entry ∈ buildable.tags.toList, before.context.KnowsAll entry.2.toList :=
    fun entry hentry tag htag => hknows tag (List.mem_flatMap.mpr ⟨entry, hentry, htag⟩)
  obtain ⟨earlier, field, tags, later, hlist, hearlier, hfield, herror⟩ := raises_foldlM htags h
  rw [hnames] at hearlier hfield herror
  exact ⟨field, Buildable.lacksFirst_of_toList hbuildable hlist hearlier hfield, herror⟩

end Substitution

end ConfigLowering
