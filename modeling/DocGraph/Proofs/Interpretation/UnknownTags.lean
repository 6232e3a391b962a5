import DocGraph.Interpretation
import DocGraph.Proofs.Rule.Ownership

/-! Tags that a category does not understand.

    A rule sees tags by their names only, and whether there are any at all. Every rule of a category
    looks for names that the category lists (`Category.looksAt_of_mem_all`), so its effects are the
    same in two scopes that differ in other tags, and so is the whole evaluation. -/

namespace DocGraph

namespace Rule

/-! ### What rules look at -/

/-- Two scopes that differ at most in tags beside those of some names. -/
structure Scope.Alike (names : List String) (s s' : Scope) : Prop where
  symbol : s.symbol = s'.symbol
  files : s.files = s'.files
  charNames : s.charNames = s'.charNames
  isEmpty : s.tags.isEmpty = s'.tags.isEmpty
  findAll : s.findAll names = s'.findAll names

theorem Scope.findAll_of_subset (s : Scope) {names names' : List String} (h : names' ⊆ names) :
    s.findAll names' = (s.findAll names).filter fun t => names'.contains t.name := by
  rw [findAll, findAll, List.filter_filter]
  refine List.filter_congr fun t _ => ?_
  by_cases ht : t.name ∈ names'
  · simp [ht, h ht]
  · simp [ht]

theorem Scope.Alike.mono {s s' : Scope} {names names' : List String} (h : s.Alike names s')
    (hnames : names' ⊆ names) : s.Alike names' s' := by
  refine ⟨h.symbol, h.files, h.charNames, h.isEmpty, ?_⟩
  rw [s.findAll_of_subset hnames, s'.findAll_of_subset hnames, h.findAll]

/-- A rule that does not see tags beside those of some names. -/
def DocRule.LooksAt (names : List String) (rule : DocRule) : Prop :=
  ∀ s s' : Scope, s.Alike names s' → rule.effect s = rule.effect s'

namespace DocRule.LooksAt

variable {names names' wanted : List String} {rule : DocRule}

theorem mono (h : rule.LooksAt names') (hnames : names' ⊆ names) : rule.LooksAt names :=
  fun s s' hs => h s s' (hs.mono hnames)

/-- A rule that sees no tag. -/
theorem blind (h : ∀ (s : Scope) (tags : List Tag), rule.effect { s with tags := tags } = rule.effect s) :
    rule.LooksAt names := by
  rintro s ⟨tags, _, _, _⟩ ⟨rfl, rfl, rfl, _, _⟩
  exact (h s tags).symm

/-- A rule that changes the record by the tags of some names. -/
theorem assign (wanted : List String) (hwanted : wanted ⊆ names) {needs : List String}
    {change : Scope → Record → Record}
    (h : ∀ s s' : Scope, s.findAll wanted = s'.findAll wanted → change s = change s') :
    (DocRule.assign needs change).LooksAt names := by
  intro s s' hs
  simp only [DocRule.assign, h s s' (hs.mono hwanted).findAll]

theorem whenTagged {change : Tag → Record → Record} (hwanted : wanted ⊆ names) :
    (Rule.whenTagged wanted change).LooksAt names :=
  .assign wanted hwanted fun _ _ h => by simp only [Scope.find?, h]

theorem collecting {α : Type} {read : CharacterNames → Tag → Reading α}
    {store : Option (List α) → Record → Record}
    (hwanted : wanted ⊆ names) : (DocRule.collecting wanted read store).LooksAt names := by
  rintro s ⟨tags, _, _, _⟩ hs
  have hfound := (hs.mono hwanted).findAll
  obtain ⟨rfl, rfl, rfl, _, _⟩ := hs
  simp only [DocRule.collecting, hfound]
  rfl

theorem reading {parts : Descriptor.Wanted} {store : Option Descriptor → Record → Record}
    (hwanted : wanted ⊆ names) : (DocRule.reading wanted parts store).LooksAt names := by
  rintro s ⟨tags, _, _, _⟩ hs
  have hfound := (hs.mono hwanted).findAll
  obtain ⟨rfl, rfl, rfl, _, _⟩ := hs
  simp only [DocRule.reading, Scope.find?, hfound]
  rfl

end DocRule.LooksAt

theorem looksAt_undocumentedRule : undocumentedRule.LooksAt sharedTags := by
  intro s s' hs
  have hfound : s.findAll [undocumentedTag] = s'.findAll [undocumentedTag] :=
    (hs.mono (by decide)).findAll
  simp only [undocumentedRule, DocRule.assign, Scope.find?, hfound, hs.isEmpty]

theorem looksAt_sharedRules : ∀ e ∈ sharedRules, e.2.LooksAt sharedTags := by
  simp only [sharedRules, List.forall_mem_cons]
  exact ⟨.blind fun _ _ => rfl,
    .blind fun _ _ => rfl,
    .blind fun _ _ => rfl,
    .blind fun _ _ => rfl,
    .blind fun _ _ => rfl,
    .whenTagged (by decide),
    .assign ["@access", "@public", "@protected", "@private"] (by decide)
      fun _ _ h => by simp only [Scope.find?, h],
    .whenTagged (by decide),
    .assign ["@desc"] (by decide) fun _ _ h => by simp only [Scope.find?, h],
    .collecting (by decide),
    .assign ["@example"] (by decide) fun _ _ h => by simp only [Scope.values, h],
    .whenTagged (by decide),
    .whenTagged (by decide),
    .blind fun _ _ => rfl,
    .collecting (by decide),
    .whenTagged (by decide),
    .collecting (by decide),
    .collecting (by decide),
    .reading (by decide),
    .assign ["@see"] (by decide) fun _ _ h => by simp only [Scope.values, h],
    .whenTagged (by decide),
    .assign ["@todo"] (by decide) fun _ _ h => by simp only [Scope.values, h],
    .collecting (by decide),
    .reading (by decide),
    looksAt_undocumentedRule,
    .whenTagged (by decide),
    .blind fun _ _ => rfl,
    List.forall_mem_nil _⟩

theorem looksAt_classRules : ∀ e ∈ Category.classRules, e.2.LooksAt Category.classTags := by
  have hextends : extendsRule.LooksAt Category.classTags := by
    rintro s ⟨tags, _, _, _⟩ hs
    have hfound : s.findAll ["@extends", "@extend"] = Scope.findAll ⟨tags, _, _, _⟩ _ :=
      (hs.mono (by decide)).findAll
    obtain ⟨rfl, rfl, rfl, _, _⟩ := hs
    simp only [extendsRule, hfound]
    rfl
  simp only [Category.classRules, List.forall_mem_cons]
  exact ⟨hextends,
    .assign ["@implements", "@implement"] (by decide) fun _ _ h => by simp only [h],
    .assign ["@interface"] (by decide) fun _ _ h => by simp only [Scope.find?, h],
    List.forall_mem_nil _⟩

theorem looksAt_typedefNameRule : typedefNameRule.LooksAt ["@typedef"] := by
  rintro s ⟨tags, _, _, _⟩ ⟨rfl, rfl, rfl, _, hfound⟩
  simp only [typedefNameRule, hfound]
  rfl

theorem looksAt_externalNameRule : externalNameRule.LooksAt ["@external"] := by
  intro s s' hs
  simp only [externalNameRule, hs.findAll]

end Rule

/-! ### Categories -/

namespace Category

open Rule

theorem looksAt_compose {kind : String} {special : Named DocRule} {tags : List String}
    (htags : sharedTags ⊆ tags) (h : ∀ e ∈ special, e.2.LooksAt tags) :
    ∀ e ∈ compose kind special, e.2.LooksAt tags := by
  refine Named.forall_mem_putAll (List.forall_mem_cons.mpr ⟨.blind fun _ _ => rfl, ?_⟩) h
  exact fun e he => (looksAt_sharedRules e he).mono htags

/-- The rules of a category look for no tag that it does not list. -/
theorem looksAt_of_mem_all : ∀ c ∈ all, ∀ e ∈ c.rules, e.2.LooksAt c.tags := by
  have hfile : ∀ e ∈ fileRules, e.2.LooksAt sharedTags := by
    simp only [fileRules, List.forall_mem_cons]
    exact ⟨.blind fun _ _ => rfl, .blind fun _ _ => rfl, .blind fun _ _ => rfl,
      .blind fun _ _ => rfl, .blind fun _ _ => rfl, List.forall_mem_nil _⟩
  have hmodule : ∀ {tags}, ∀ e ∈ moduleRules, e.2.LooksAt tags := by
    simp only [moduleRules, List.forall_mem_cons]
    exact ⟨.blind fun _ _ => rfl, .blind fun _ _ => rfl, .blind fun _ _ => rfl,
      .blind fun _ _ => rfl, List.forall_mem_nil _⟩
  have hcallable : ∀ e ∈ callableRules, e.2.LooksAt sharedTags := by
    simp only [callableRules, List.forall_mem_cons]
    exact ⟨.blind fun _ _ => rfl, List.forall_mem_nil _⟩
  have hclass : ∀ e ∈ classRules, e.2.LooksAt (sharedTags ++ classTags) :=
    fun e he => (looksAt_classRules e he).mono (List.subset_append_right ..)
  have hsub : ∀ own, sharedTags ⊆ sharedTags ++ own := fun own => List.subset_append_left ..
  simp only [all, List.forall_mem_cons]
  refine ⟨looksAt_compose (List.Subset.refl _) hfile, looksAt_compose (List.Subset.refl _) hfile,
    looksAt_compose (List.Subset.refl _) (List.forall_mem_append.mpr ⟨hfile, ?memory⟩),
    looksAt_compose (hsub _) (List.forall_mem_append.mpr ⟨hmodule, hclass⟩),
    looksAt_compose (List.Subset.refl _) (List.forall_mem_append.mpr ⟨hmodule, hcallable⟩),
    looksAt_compose (List.Subset.refl _) hmodule, looksAt_compose (List.Subset.refl _) hmodule,
    looksAt_compose (List.Subset.refl _) ?member, looksAt_compose (List.Subset.refl _) ?member,
    looksAt_compose (List.Subset.refl _) (List.forall_mem_append.mpr ⟨?method, hcallable⟩),
    looksAt_compose (hsub _) ?typedef, looksAt_compose (hsub _) ?external,
    looksAt_compose (hsub _) ?test, List.forall_mem_nil _⟩
  all_goals simp only [List.forall_mem_cons]
  case memory | member => exact ⟨.blind fun _ _ => rfl, List.forall_mem_nil _⟩
  case method => exact ⟨.blind fun _ _ => rfl, .blind fun _ _ => rfl, List.forall_mem_nil _⟩
  case typedef =>
    exact ⟨.blind fun _ _ => rfl, looksAt_typedefNameRule.mono (List.subset_append_right ..),
      .reading (List.subset_append_right ..), List.forall_mem_nil _⟩
  case external =>
    exact ⟨.blind fun _ _ => rfl, looksAt_externalNameRule.mono (List.subset_append_right ..),
      .blind fun _ _ => rfl, List.forall_mem_nil _⟩
  case test =>
    exact ⟨.blind fun _ _ => rfl, .blind fun _ _ => rfl,
      .assign ["@test", "@testTarget"] (List.subset_append_right ..) fun _ _ h => by simp only [h],
      List.forall_mem_nil _⟩

theorem registry_alike {c : Category} (hc : c ∈ all) {s s' : Scope} (h : s.Alike c.tags s') :
    c.registry s = c.registry s' := by
  refine List.map_congr_left fun e he => ?_
  rw [DocRule.inScope, DocRule.inScope, looksAt_of_mem_all c hc e he s s' h]

end Category

/-! ### Interpretation -/

namespace Interpretation

open Rule

/-- Whether a category understands a tag. -/
def known (c : Category) (t : Tag) : Bool := c.tags.contains t.name

theorem splitTags_eq (c : Category) (tags : List Tag) :
    splitTags c tags = (tags.filter (known c), tags.filter fun t => !known c t) :=
  List.partition_eq_filter_filter ..

/-- What comes of interpreting a record in two scopes in which the rules do the same: the same, but
    for the lists of tags. -/
theorem interpretAs_congr {c : Category} {strict : Bool} {s s' : Scope}
    (h : evaluator c strict s = evaluator c strict s') (record : Record) :
    let result := interpretAs c strict s record
    let result' := interpretAs c strict s' record
    result.2 = result'.2 ∧ result.1.diagnostics = result'.1.diagnostics ∧
      result.1.logs = result'.1.logs ∧
      ∀ f, (f = .tagsKnown → (splitTags c s.tags).1 = (splitTags c s'.tags).1) →
        (f = .tagsUnknown → (splitTags c s.tags).2 = (splitTags c s'.tags).2) →
        result.1.record.field f = result'.1.record.field f := by
  simp only [interpretAs, h]
  split
  · exact ⟨rfl, rfl, rfl, fun _ _ _ => rfl⟩
  · next p _ =>
    refine ⟨rfl, rfl, rfl, fun f hknown hunknown => ?_⟩
    by_cases hf : f = .tagsKnown
    · subst hf
      exact hknown rfl
    by_cases hf' : f = .tagsUnknown
    · subst hf'
      exact hunknown rfl
    have hwrite : ∀ known unknown, ({ p.state.record with
        tagsKnown := known, tagsUnknown := unknown } : Record).field f = p.state.record.field f :=
      fun known unknown =>
        ((p.state.record.write .tagsKnown known).field_write_of_ne hf' unknown).trans
          (p.state.record.field_write_of_ne hf known)
    exact (hwrite _ _).trans (hwrite _ _).symm

/-- What comes of interpreting a record in two scopes that a category cannot tell apart: the same, but
    for the tags that it does not understand. -/
theorem interpretAs_alike {c : Category} (hc : c ∈ Category.all) {s s' : Scope}
    (h : s.Alike c.tags s') (strict : Bool) (record : Record) :
    let result := interpretAs c strict s record
    let result' := interpretAs c strict s' record
    result.2 = result'.2 ∧ result.1.diagnostics = result'.1.diagnostics ∧
      result.1.logs = result'.1.logs ∧
      ∀ f, f ≠ .tagsUnknown → result.1.record.field f = result'.1.record.field f := by
  have hevaluator : evaluator c strict s = evaluator c strict s' := by
    rw [evaluator, evaluator, Category.registry_alike hc h]
  have hknown : (splitTags c s.tags).1 = (splitTags c s'.tags).1 := by
    rw [splitTags_eq, splitTags_eq]
    exact h.findAll
  obtain ⟨herror, hdiagnostics, hlogs, hfields⟩ := interpretAs_congr hevaluator record
  exact ⟨herror, hdiagnostics, hlogs, fun f hf => hfields f (fun _ => hknown) fun he => absurd he hf⟩

theorem tags_interpretAs {c : Category} {strict : Bool} {s : Scope} {record : Record}
    (h : (interpretAs c strict s record).2 = none) :
    (interpretAs c strict s record).1.record.tagsKnown = s.tags.filter (known c) ∧
      (interpretAs c strict s record).1.record.tagsUnknown = s.tags.filter fun t => !known c t := by
  rw [interpretAs] at h ⊢
  split at h
  · cases h
  · simp only [splitTags_eq, and_self]

/-- Tags that a record's category does not understand have no influence: with the same others in the
    same order, two lists of tags that are not empty lead to the same error or to none, and to the
    same diagnostics, log entries and fields, but for the list of those very tags. A record that is
    filled in holds the tags that its category understands and the others, each in their order. -/
theorem interpret_unknown_tags {record : Record} {c : Category}
    (hc : Category.find? record.category = some c) (strict : Bool) (symbol : Symbol)
    (files : Files.Tree) (charNames : CharacterNames) :
    (∀ tags tags' : List Tag, tags ≠ [] → tags' ≠ [] →
      tags.filter (known c) = tags'.filter (known c) →
      let result := interpret strict ⟨tags, symbol, files, charNames⟩ record
      let result' := interpret strict ⟨tags', symbol, files, charNames⟩ record
      result.2 = result'.2 ∧ result.1.diagnostics = result'.1.diagnostics ∧
        result.1.logs = result'.1.logs ∧
        ∀ f, f ≠ .tagsUnknown → result.1.record.field f = result'.1.record.field f) ∧
    ∀ tags : List Tag,
      let result := interpret strict ⟨tags, symbol, files, charNames⟩ record
      result.2 = none → result.1.record.tagsKnown = tags.filter (known c) ∧
        result.1.record.tagsUnknown = tags.filter fun t => !known c t := by
  have hmem : c ∈ Category.all := List.mem_of_find?_eq_some hc
  simp only [interpret, hc]
  refine ⟨fun tags tags' htags htags' hknown => ?_, fun tags h => tags_interpretAs h⟩
  have halike : Scope.Alike c.tags ⟨tags, symbol, files, charNames⟩
      ⟨tags', symbol, files, charNames⟩ := by
    refine ⟨rfl, rfl, rfl, ?_, hknown⟩
    rw [List.isEmpty_eq_false_iff.mpr htags, List.isEmpty_eq_false_iff.mpr htags']
  exact interpretAs_alike hmem halike strict record

/-- A tag that classes do not understand, before, between and behind two that they do. -/
theorem interpret_unknown_tags_between :
    let record : Record := { id := 0, category := "Class" }
    let tags : List Tag := [⟨"@param", "{number}"⟩, ⟨"@typedef", "T"⟩, ⟨"@extends", "{Base}"⟩]
    let tags' : List Tag := [⟨"@typedef", "U"⟩, ⟨"@param", "{number}"⟩, ⟨"@extends", "{Base}"⟩]
    let result := interpret true ⟨tags, .ofFile (.str "a.js"), ⟨[], []⟩, .none⟩ record
    let result' := interpret true ⟨tags', .ofFile (.str "a.js"), ⟨[], []⟩, .none⟩ record
    tags ≠ tags' ∧ tags.filter (known .classes) = tags'.filter (known .classes) ∧
      result.2 = none ∧ result'.2 = none ∧ result.1.diagnostics = result'.1.diagnostics ∧
      result.1.record.parents = result'.1.record.parents ∧
      result.1.record.tagsUnknown = [⟨"@typedef", "T"⟩] ∧
      result'.1.record.tagsUnknown = [⟨"@typedef", "U"⟩] := by
  intro record tags tags' result result'
  have hknown : tags.filter (known .classes) = tags'.filter (known .classes) := by decide
  have hcategory : Category.find? record.category = some .classes := rfl
  obtain ⟨hsame, hsplit⟩ :=
    interpret_unknown_tags hcategory true (.ofFile (.str "a.js")) ⟨[], []⟩ .none
  obtain ⟨herror, hdiagnostics, _, hrecord⟩ := hsame tags tags' nofun nofun hknown
  have hend : result.2 = none := Option.isNone_iff_eq_none.mp (by decide +kernel)
  have hend' : result'.2 = none := herror.symm.trans hend
  exact ⟨by decide, hknown, hend, hend', hdiagnostics, hrecord .parents nofun,
    (hsplit tags hend).2, (hsplit tags' hend').2⟩

end Interpretation

end DocGraph
