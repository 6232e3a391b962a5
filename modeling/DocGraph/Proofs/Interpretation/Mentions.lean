import DocGraph.Proofs.Descriptor.RoundTrip
import DocGraph.Proofs.Interpretation.Reordering
import DocGraph.Proofs.Interpretation.UnknownTags

/-! References to names.

    A tag refers to a name by its first word or by its type clause, so the name may stand in braces
    or not (`Mention`). The braces are taken off unless the name has an `@` in it, which no type
    clause has, or is the wildcard, which stands for a clause that is missing (`Mention.Stuck`).
    With other names it makes no difference for any record how they are written
    (`references_independent`). -/

namespace DocGraph

open Rule

/-! ### Mentions -/

/-- A name as the value of a tag: bare or in braces, with any text behind it. -/
structure Mention where
  name : String
  braced : Bool
  /-- Nothing, or white space and any text. -/
  trail : String
  name_ne : name ≠ ""
  word : ∀ c ∈ name.toList, Text.isBlank c = false
  noOpening : '\x7b' ∉ name.toList
  noClosing : '\x7d' ∉ name.toList
  separated : Descriptor.atBoundary trail.toList = true

namespace Mention

/-- Whether a name can be mentioned, with a text behind it. -/
def isPlain (name trail : String) : Bool :=
  name != "" && name.toList.all (fun c => !Text.isBlank c && c != '\x7b' && c != '\x7d') &&
    Descriptor.atBoundary trail.toList

theorem isPlain_iff {name trail : String} :
    isPlain name trail = true ↔ name ≠ "" ∧
      (∀ c ∈ name.toList, Text.isBlank c = false ∧ c ≠ '\x7b' ∧ c ≠ '\x7d') ∧
      Descriptor.atBoundary trail.toList = true := by
  simp [isPlain, and_assoc]

/-- The mention of a name, with a text behind it. -/
def of (name trail : String) (braced : Bool) (h : isPlain name trail = true) : Mention where
  name := name
  braced := braced
  trail := trail
  name_ne := (isPlain_iff.mp h).1
  word := fun c hc => ((isPlain_iff.mp h).2.1 c hc).1
  noOpening := fun hc => ((isPlain_iff.mp h).2.1 _ hc).2.1 rfl
  noClosing := fun hc => ((isPlain_iff.mp h).2.1 _ hc).2.2 rfl
  separated := (isPlain_iff.mp h).2.2

/-- The name as it is written. -/
def written (m : Mention) : String := if m.braced then "\x7b" ++ m.name ++ "\x7d" else m.name

/-- The value of the tag. -/
def value (m : Mention) : String := m.written ++ m.trail

/-- The braces stay on: the name is none that a type clause can hold, or none that can be told from
    a missing one. -/
def Stuck (m : Mention) : Prop := m.braced = true ∧ ('@' ∈ m.name.toList ∨ m.name = "*")

instance (m : Mention) : Decidable m.Stuck := inferInstanceAs (Decidable (_ ∧ _))

/-- What the tag is taken to refer to. -/
def found (m : Mention) : String := if m.Stuck then m.written else m.name

theorem toList_written (m : Mention) :
    m.written.toList =
      if m.braced then '\x7b' :: (m.name.toList ++ ['\x7d']) else m.name.toList := by
  rw [written]
  split <;> simp

theorem toList_name_ne (m : Mention) : m.name.toList ≠ [] := by
  simpa using m.name_ne

theorem toList_written_ne (m : Mention) : m.written.toList ≠ [] := by
  rw [toList_written]
  split
  · exact List.cons_ne_nil _ _
  · exact m.toList_name_ne

/-- There is no white space in the name as it is written. -/
theorem isBlank_written (m : Mention) : ∀ c ∈ m.written.toList, Text.isBlank c = false := by
  rw [toList_written]
  split
  · simp only [List.forall_mem_cons, List.forall_mem_append]
    exact ⟨by decide, m.word, by decide, List.forall_mem_nil _⟩
  · exact m.word

/-- Trimming a value leaves the name as it is written, and what is left behind it begins with white
    space. -/
theorem exists_trim_value (m : Mention) :
    ∃ rest, Text.trim m.value.toList = m.written.toList ++ rest ∧
      Descriptor.atBoundary rest = true := by
  have htrimmed : Text.trimWith Text.isBlank m.written.toList = m.written.toList :=
    Text.trimWith_eq_self_iff.mpr
      ⟨fun c hc => m.isBlank_written c (List.mem_of_mem_head? hc),
        fun c hc => m.isBlank_written c (List.mem_of_mem_getLast? hc)⟩
  obtain ⟨rest, htrim, hrest⟩ :=
    Text.exists_trimWith_append htrimmed m.toList_written_ne m.trail.toList
  refine ⟨rest, by rw [value, String.toList_append, Text.trim, htrim], ?_⟩
  cases rest with
  | nil => rfl
  | cons c rest =>
    obtain ⟨tail, htail⟩ := hrest
    have hseparated := m.separated
    rwa [← htail] at hseparated

end Mention

/-! ### What is found -/

namespace Descriptor

/-- An `@` before the first closing brace makes it no type. -/
theorem typeTail_of_at {rest : List Char} : ∀ {cs : List Char}, '@' ∈ cs → '\x7d' ∉ cs →
    typeTail (cs ++ rest) = none
  | c :: cs, hat, hclosing => by
    obtain ⟨hc, hrest⟩ := not_or.mp (mt List.mem_cons.mpr hclosing)
    have hhere : ¬ (c = '\x7d' && atBoundary (cs ++ rest)) = true := by
      simp [Ne.symm hc]
    rw [List.cons_append, typeTail, if_neg hhere]
    by_cases he : c = '@'
    · rw [if_pos he]
    · have hlater : '@' ∈ cs := (List.mem_cons.mp hat).resolve_left (Ne.symm he)
      rw [if_neg he, typeTail_of_at hlater hrest]
      rfl

end Descriptor

namespace Mention

open Descriptor

theorem typeText_name (m : Mention) (hat : '@' ∉ m.name.toList) : TypeText m.name.toList where
  noAt := hat
  closed := fun _ _ hpair => absurd (hpair.subset List.mem_cons_self) m.noClosing

/-- The type that a value seems to have: the name in braces, or else the wildcard. -/
theorem splitType_written (m : Mention) {rest : List Char} (hrest : atBoundary rest = true) :
    (splitType (m.written.toList ++ rest)).1 =
      if m.braced = true ∧ '@' ∉ m.name.toList then m.name else wildcard := by
  rw [toList_written]
  cases hbraced : m.braced with
  | true =>
    rw [if_pos rfl, List.cons_append, List.append_assoc, List.singleton_append, splitType,
      typeClause?]
    by_cases hat : '@' ∈ m.name.toList
    · rw [typeTail_of_at hat m.noClosing, if_neg fun h => h.2 hat]
    · rw [typeTail_append hrest (m.typeText_name hat), if_pos ⟨rfl, hat⟩]
      exact String.ofList_toList
  | false =>
    have hnone : typeClause? (m.name.toList ++ rest) = none := by
      obtain ⟨c, cs, hname⟩ := List.exists_cons_of_ne_nil m.toList_name_ne
      have hc : c ≠ '\x7b' := by
        rintro rfl
        exact m.noOpening (hname ▸ List.mem_cons_self)
      rw [hname, List.cons_append, typeClause?.eq_def]
      split
      · next he => exact absurd (List.cons.inj he).1 hc
      · rfl
    rw [if_neg Bool.false_ne_true, splitType, hnone, if_neg fun h => Bool.false_ne_true h.1]

/-- The first word of a value is the name as it is written. -/
theorem takeWhile_written (m : Mention) {rest : List Char} (hrest : atBoundary rest = true) :
    (m.written.toList ++ rest).takeWhile (fun c => !Text.isBlank c) = m.written.toList := by
  refine Text.takeWhile_append_of_stop (fun c hc => by simp [m.isBlank_written c hc]) ?_
  cases rest with
  | nil => simp
  | cons c rest => simpa [atBoundary] using hrest

/-- A tag refers to what is found in its value. -/
theorem references_singleton (m : Mention) (tag : String) :
    references [⟨tag, m.value⟩] = [m.found] := by
  obtain ⟨rest, htrim, hrest⟩ := m.exists_trim_value
  have hsplit := m.splitType_written hrest
  obtain ⟨⟨type, after⟩, hclauses⟩ : ∃ clauses, splitType (m.written.toList ++ rest) = clauses :=
    ⟨_, rfl⟩
  have htype : type = if m.braced = true ∧ '@' ∉ m.name.toList then m.name else wildcard := by
    rwa [hclauses] at hsplit
  have hbody : (m.written.toList ++ rest).isEmpty = false := by
    simp [m.toList_written_ne]
  have hword : references [⟨tag, m.value⟩] =
      if type = wildcard then [m.written] else (Record.filled (some type)).toList := by
    simp only [references, List.filterMap_cons, List.filterMap_nil, htrim, hclauses, hbody,
      m.takeWhile_written hrest, String.ofList_toList]
    by_cases hwild : type = wildcard
    · simp [hwild]
    · cases hfilled : Record.filled (some type) <;> simp [hwild]
  have hfilled : (Record.filled (some m.name)).toList = [m.name] := by
    simp [Record.filled, m.name_ne]
  rw [hword, htype, found]
  by_cases hclause : m.braced = true ∧ '@' ∉ m.name.toList
  · rw [if_pos hclause]
    by_cases hwild : m.name = wildcard
    · rw [if_pos hwild, if_pos ⟨hclause.1, Or.inr hwild⟩]
    · have hfree : ¬ m.Stuck := fun hstuck => hstuck.2.elim hclause.2 hwild
      rw [if_neg hwild, if_neg hfree, hfilled]
  · rw [if_neg hclause, if_pos rfl]
    split
    · rfl
    · next hfree =>
      have hbare : ¬ m.braced = true := fun hbraced =>
        hclause ⟨hbraced, fun hat => hfree ⟨hbraced, Or.inl hat⟩⟩
      rw [written, if_neg hbare]

theorem found_eq_name_iff (m : Mention) : m.found = m.name ↔ ¬ m.Stuck := by
  rw [found]
  split
  · next hstuck =>
    refine iff_of_false (fun he => m.noOpening ?_) (not_not.mpr hstuck)
    rw [← he, toList_written, if_pos hstuck.1]
    exact List.mem_cons_self
  · next hfree => exact iff_of_true rfl hfree

end Mention

/-- Tags refer to what each of them refers to, in order. -/
theorem references_cons (t : Tag) (ts : List Tag) :
    references (t :: ts) = references [t] ++ references ts := by
  simp only [references, ← List.filterMap_append, List.singleton_append]

/-- Tags refer to what is found in their values, in order. -/
theorem references_mentions {tags : List Tag} {ms : List Mention}
    (h : tags.map Tag.value = ms.map Mention.value) : references tags = ms.map Mention.found := by
  induction tags generalizing ms with
  | nil =>
    obtain rfl := List.map_eq_nil_iff.mp h.symm
    rfl
  | cons t tags ih =>
    obtain ⟨m, ms, rfl, hm, hrest⟩ := List.map_eq_cons_iff.mp h.symm
    obtain ⟨tag, _⟩ := t
    obtain rfl := hm
    rw [references_cons, ih hrest.symm, Mention.references_singleton, List.map_cons,
      List.singleton_append]

/-! ### Other words for the same names -/

/-- The tags that refer to names. -/
def referenceTags : List String :=
  ["@extends", "@extend", "@implements", "@implement", "@test", "@testTarget"]

/-- The same tag, or one that refers to the same name in another way. -/
inductive Rewords : Tag → Tag → Prop
  | same (t : Tag) : Rewords t t
  | mention {tag : String} (htag : tag ∈ referenceTags) {m m' : Mention} (hname : m.name = m'.name)
      (hm : ¬ m.Stuck) (hm' : ¬ m'.Stuck) : Rewords ⟨tag, m.value⟩ ⟨tag, m'.value⟩

theorem Rewords.name_eq {t t' : Tag} (h : Rewords t t') : t.name = t'.name := by
  cases h <;> rfl

theorem Rewords.references_eq {t t' : Tag} (h : Rewords t t') :
    references [t] = references [t'] := by
  cases h with
  | same => rfl
  | @mention tag _ m m' hname hm hm' =>
    rw [m.references_singleton, m'.references_singleton, m.found_eq_name_iff.mpr hm,
      m'.found_eq_name_iff.mpr hm', hname]

section Lists

variable {tags tags' : List Tag}

/-- Tags in other words refer to the same names, whichever of them are looked for. -/
theorem references_filter (h : List.Forall₂ Rewords tags tags') (p : String → Bool) :
    references (tags.filter fun t => p t.name) = references (tags'.filter fun t => p t.name) := by
  induction h with
  | nil => rfl
  | @cons t t' _ _ ht _ ih =>
    rw [List.filter_cons, List.filter_cons, ht.name_eq]
    split
    · rw [references_cons, references_cons t', ht.references_eq, ih]
    · exact ih

/-- Tags that refer to no name stay as they are. -/
theorem filter_eq_of_rewords (h : List.Forall₂ Rewords tags tags') {p : String → Bool}
    (hp : ∀ name ∈ referenceTags, p name = false) :
    (tags.filter fun t => p t.name) = tags'.filter fun t => p t.name := by
  induction h with
  | nil => rfl
  | cons ht _ ih =>
    rw [List.filter_cons, List.filter_cons, ih]
    cases ht with
    | same => rfl
    | mention htag => simp only [hp _ htag, Bool.false_eq_true, if_false]

end Lists

namespace Rule

/-- The same symbol, with its tags in other words. -/
structure Scope.Reworded (s s' : Scope) : Prop where
  symbol : s.symbol = s'.symbol
  files : s.files = s'.files
  charNames : s.charNames = s'.charNames
  tags : List.Forall₂ Rewords s.tags s'.tags

/-- Whoever does not look for references sees no difference. -/
theorem Scope.Reworded.alike {s s' : Scope} {names : List String} (h : s.Reworded s')
    (hnames : ∀ name ∈ referenceTags, name ∉ names) : s.Alike names s' where
  symbol := h.symbol
  files := h.files
  charNames := h.charNames
  isEmpty := by
    rw [Bool.eq_iff_iff, List.isEmpty_iff_length_eq_zero, List.isEmpty_iff_length_eq_zero,
      h.tags.length_eq]
  findAll := filter_eq_of_rewords h.tags fun name hname => by simpa using hnames name hname

/-- A rule that does the same whichever way names are written. -/
def DocRule.Indifferent (rule : DocRule) : Prop :=
  ∀ s s' : Scope, s.Reworded s' → rule.effect s = rule.effect s'

namespace DocRule.Indifferent

theorem of_looksAt {names : List String} {rule : DocRule} (h : rule.LooksAt names)
    (hnames : ∀ name ∈ referenceTags, name ∉ names) : rule.Indifferent :=
  fun s s' hs => h s s' (hs.alike hnames)

/-- A rule that sees no tag. -/
theorem blind {rule : DocRule}
    (h : ∀ (s : Scope) (tags : List Tag), rule.effect { s with tags := tags } = rule.effect s) :
    rule.Indifferent := by
  have hlooks : rule.LooksAt [] := .blind h
  exact of_looksAt hlooks fun _ _ => List.not_mem_nil

/-- A rule that changes the record by what tags refer to. -/
theorem assign {needs : List String} {change : Scope → Record → Record} (names : List String)
    (h : ∀ s s' : Scope, references (s.findAll names) = references (s'.findAll names) →
      change s = change s') : (DocRule.assign needs change).Indifferent := by
  intro s s' hs
  simp only [DocRule.assign, h s s' (references_filter hs.tags fun name => names.contains name)]

end DocRule.Indifferent

theorem indifferent_extendsRule : extendsRule.Indifferent := by
  rintro s ⟨tags, _, _, _⟩ hs
  have hfound : references (s.findAll ["@extends", "@extend"]) =
      references (Scope.findAll ⟨tags, _, _, _⟩ ["@extends", "@extend"]) :=
    references_filter hs.tags fun name => ["@extends", "@extend"].contains name
  obtain ⟨rfl, rfl, rfl, _⟩ := hs
  simp only [extendsRule, hfound]
  rfl

end Rule

/-! ### Categories -/

namespace Category

theorem indifferent_compose {kind : String} {special : Named DocRule}
    (h : ∀ e ∈ special, e.2.Indifferent) : ∀ e ∈ compose kind special, e.2.Indifferent := by
  refine Named.forall_mem_putAll (List.forall_mem_cons.mpr ⟨.blind fun _ _ => rfl, ?_⟩) h
  exact fun e he => .of_looksAt (looksAt_sharedRules e he) (by decide)

theorem indifferent_classes : ∀ e ∈ classes.rules, e.2.Indifferent := by
  have hinterface : interfaceRule.LooksAt ["@interface"] :=
    .assign ["@interface"] (List.Subset.refl _) fun _ _ h => by simp only [Scope.find?, h]
  refine indifferent_compose (List.forall_mem_append.mpr ⟨?_, ?_⟩)
  · simp only [moduleRules, List.forall_mem_cons]
    exact ⟨.blind fun _ _ => rfl, .blind fun _ _ => rfl, .blind fun _ _ => rfl,
      .blind fun _ _ => rfl, List.forall_mem_nil _⟩
  · simp only [classRules, List.forall_mem_cons]
    exact ⟨indifferent_extendsRule,
      .assign ["@implements", "@implement"] fun _ _ h => by simp only [h],
      .of_looksAt hinterface (by decide), List.forall_mem_nil _⟩

theorem indifferent_test : ∀ e ∈ test.rules, e.2.Indifferent := by
  refine indifferent_compose ?_
  simp only [List.forall_mem_cons]
  exact ⟨.blind fun _ _ => rfl, .blind fun _ _ => rfl,
    .assign ["@test", "@testTarget"] fun _ _ h => by simp only [h], List.forall_mem_nil _⟩

/-- No rule of any category goes by the way in which names are written. -/
theorem indifferent_of_mem_all : ∀ c ∈ all, ∀ e ∈ c.rules, e.2.Indifferent := by
  have hothers : ∀ c ∈ all, (∀ name ∈ referenceTags, name ∉ c.tags) ∨ c.name = "Class" ∨
      c.name = "Test" := by
    decide +kernel
  intro c hc
  rcases hothers c hc with hnames | hname | hname
  · exact fun e he => .of_looksAt (looksAt_of_mem_all c hc e he) hnames
  · have hfind := (find?_name_of_mem_all c hc).symm.trans (congrArg find? hname)
    obtain rfl : c = classes := Option.some.inj hfind
    exact indifferent_classes
  · have hfind := (find?_name_of_mem_all c hc).symm.trans (congrArg find? hname)
    obtain rfl : c = test := Option.some.inj hfind
    exact indifferent_test

theorem evaluator_reworded {c : Category} (hc : c ∈ all) {s s' : Scope} (h : s.Reworded s')
    (strict : Bool) :
    Interpretation.evaluator c strict s = Interpretation.evaluator c strict s' := by
  have hregistry : c.registry s = c.registry s' := by
    refine List.map_congr_left fun e he => ?_
    rw [DocRule.inScope, DocRule.inScope, indifferent_of_mem_all c hc e he s s' h]
  rw [Interpretation.evaluator, Interpretation.evaluator, hregistry]

end Category

namespace Interpretation

/-! ### Targets -/

/-- A list of names in a record that tags refer to. -/
inductive Target where
  | parents
  | interfaces
  | tests

namespace Target

/-- The category of the record. -/
def category : Target → Category
  | parents | interfaces => .classes
  | tests => .test

/-- The tags that refer to the names. -/
def tags : Target → List String
  | parents => ["@extends", "@extend"]
  | interfaces => ["@implements", "@implement"]
  | tests => ["@test", "@testTarget"]

/-- The rule that makes the list, and its name. -/
def rule : Target → String × DocRule
  | parents => ("extends", extendsRule)
  | interfaces => ("implements", implementsRule)
  | tests => ("test_targets", testTargetsRule)

/-- The list in a record. -/
def names : Target → Record → Option (List String)
  | parents, r => r.parents
  | interfaces, r => r.interfaces
  | tests, r => r.testTargets

theorem category_mem_all (t : Target) : t.category ∈ Category.all := by
  cases t <;> simp [category, Category.all]

theorem rule_mem (t : Target) : t.rule ∈ t.category.rules := by
  cases t <;> exact Named.mem_of_get? rfl

theorem names_congr (t : Target) {r r' : Record} (h : AgreeOn [t.rule.1] r r') :
    t.names r = t.names r' := by
  have hown := h t.rule.1 (List.mem_singleton_self _)
  cases t with
  | parents => exact hown .parents rfl
  | interfaces => exact hown .interfaces rfl
  | tests => exact hown .testTargets rfl

/-- The rule lists what the tags refer to, if that is anything. -/
theorem names_effect (t : Target) {s : Scope} (d : Draft)
    (h : references (s.findAll t.tags) ≠ []) :
    t.names (t.rule.2.effect s d).1.record = some (references (s.findAll t.tags)) := by
  have hsome : nonEmpty (references (s.findAll t.tags)) = some (references (s.findAll t.tags)) := by
    obtain ⟨first, rest, hcons⟩ := List.exists_cons_of_ne_nil h
    rw [hcons]
    rfl
  cases t with
  | parents =>
    simp only [rule, extendsRule]
    rw [show nonEmpty (references (s.findAll ["@extends", "@extend"])) = some _ from hsome]
    rfl
  | interfaces => exact hsome
  | tests => exact hsome

/-- A record that is filled in lists what its tags mention. -/
theorem names_interpret (t : Target) {strict : Bool} {s : Scope} {blank : Record}
    (hblank : blank.category = t.category.name) (hend : (interpret strict s blank).2 = none)
    (hsome : references (s.findAll t.tags) ≠ []) :
    t.names (interpret strict s blank).1.record = some (references (s.findAll t.tags)) := by
  rw [interpret_of_mem_all t.category_mem_all hblank] at hend ⊢
  have hrun := interpretAs_eq_none_iff.mp hend
  have hfull := filled_runOf (Category.orderly_of_mem_all _ t.category_mem_all) hrun
  have hagree := (hfull.fits _ t.rule_mem).agreeOn_of_blank (by cases t <;> rfl)
  have hnames := (t.names_congr hagree).symm.trans (t.names_effect _ hsome)
  rw [interpretAs_of_runOf hrun, ← hnames]
  cases t <;> rfl

end Target

/-- Tags refer to what they mention, bare or in braces, in their order: to the names themselves
    exactly if no name that stands in braces has an `@` in it or is the wildcard, and else to these
    names with their braces. What a class extends and implements, and what a test is about, is what
    the tags for it refer to, where there are any. With other names, whatever is written behind
    them, it makes no difference for any record how they are written: it comes to the same error or
    to none, and to the same diagnostics, log entries and fields, but for the lists of the tags
    themselves. -/
theorem references_independent (ms : List Mention) (strict : Bool) :
    (∀ tags : List Tag, tags.map Tag.value = ms.map Mention.value →
      references tags = ms.map Mention.found ∧
        (references tags = ms.map Mention.name ↔ ∀ m ∈ ms, ¬ m.Stuck)) ∧
    (∀ (t : Target) (s : Scope) (id : Int) (moduleId : Option Int),
      (s.findAll t.tags).map Tag.value = ms.map Mention.value → ms ≠ [] →
      let fresh : Record := { id := id, category := t.category.name, moduleId := moduleId }
      let result := interpret strict s fresh
      result.2 = none → t.names result.1.record = some (ms.map Mention.found)) ∧
    ∀ (s s' : Scope) (record : Record), s.Reworded s' →
      let result := interpret strict s record
      let result' := interpret strict s' record
      result.2 = result'.2 ∧ result.1.diagnostics = result'.1.diagnostics ∧
        result.1.logs = result'.1.logs ∧
        ∀ f, f ≠ .tagsKnown → f ≠ .tagsUnknown →
          result.1.record.field f = result'.1.record.field f := by
  refine ⟨fun tags hvalues => ?_, fun t s id moduleId hvalues hne hend => ?_,
    fun s s' record h => ?_⟩
  · have hfound := references_mentions hvalues
    refine ⟨hfound, ?_⟩
    rw [hfound, List.map_inj_left]
    exact forall₂_congr fun m _ => m.found_eq_name_iff
  · have hfound := references_mentions hvalues
    rw [← hfound]
    refine t.names_interpret rfl hend ?_
    rw [hfound]
    simpa using hne
  · simp only [interpret]
    cases hc : Category.find? record.category with
    | none => exact ⟨rfl, rfl, rfl, fun _ _ _ => rfl⟩
    | some c =>
      have hevaluator := Category.evaluator_reworded (List.mem_of_find?_eq_some hc) h strict
      obtain ⟨herror, hdiagnostics, hlogs, hfields⟩ := interpretAs_congr hevaluator record
      exact ⟨herror, hdiagnostics, hlogs, fun f hf hf' =>
        hfields f (fun he => absurd he hf) fun he => absurd he hf'⟩

/-- A name in braces, with a text behind it, and one without braces. -/
theorem references_independent_shapes :
    let s : Scope := ⟨[⟨"@extends", "\x7bsrc/a.js~Base\x7d for all"⟩, ⟨"@extend", "Shape"⟩],
      { Symbol.ofFile (.str "a.js") with name := .str "A" }, ⟨[], []⟩, .none⟩
    let result := interpret true s { id := 1, category := "Class" }
    references s.tags = ["src/a.js~Base", "Shape"] ∧ result.2 = none ∧
      result.1.record.parents = some ["src/a.js~Base", "Shape"] := by
  intro s result
  let ms : List Mention := [.of "src/a.js~Base" " for all" true rfl, .of "Shape" "" false rfl]
  have hvalues : s.tags.map Tag.value = ms.map Mention.value := by decide +kernel
  have hend : result.2 = none := Option.isNone_iff_eq_none.mp (by decide +kernel)
  obtain ⟨hfound, hlisted, -⟩ := references_independent ms true
  have hparents := hlisted .parents s 1 none hvalues (List.cons_ne_nil _ _) hend
  exact ⟨(hfound s.tags hvalues).1, hend, hparents⟩

/-- A name with an `@` in it and the wildcard both keep their braces. -/
theorem references_stuck :
    let package : Mention := .of "@scope/pkg~Base" "" true rfl
    let wildcard : Mention := .of "*" "" true rfl
    references [⟨"@extends", package.value⟩] = ["\x7b@scope/pkg~Base\x7d"] ∧
      references [⟨"@extends", package.value⟩] ≠ [package.name] ∧
      references [⟨"@implements", wildcard.value⟩] = ["\x7b*\x7d"] ∧
      references [⟨"@implements", wildcard.value⟩] ≠ [wildcard.name] := by
  decide +kernel

end Interpretation

end DocGraph
