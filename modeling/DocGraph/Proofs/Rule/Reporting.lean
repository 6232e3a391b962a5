import DocGraph.Proofs.Rule.Ownership

/-! Which rule reports which tags.

    A rule reports tags that it has read and could make nothing of. What it reports is therefore
    some of the tags, in their order, with names that the rule is responsible for (`reporters`); all
    rules of all categories keep to that (`Category.reports_of_mem_all`). -/

namespace DocGraph

/-- The tag that a diagnostic is about. -/
def Diagnostic.tag (d : Diagnostic) : Tag := ⟨d.tagName, d.tagValue⟩

namespace Rule

/-! ### Reading tags in order -/

/-- What reading a tag found, if anything. -/
def Reading.result? {α : Type} : Reading α → Option α
  | .found a => some a
  | .refused _ | .overflow => none

section Collect

variable {α : Type} {read : Tag → Reading α} {tags : List Tag}

/-- The tags that are refused are some of those that are read, in their order. -/
theorem refused_collect_sublist (read : Tag → Reading α) (tags : List Tag) :
    ((collect read tags).refused.map Prod.fst).Sublist tags := by
  induction tags with
  | nil => exact .slnil
  | cons t tags ih =>
    rw [collect]
    cases read t with
    | found a => exact ih.cons t
    | refused message => exact ih.cons_cons t
    | overflow => exact List.nil_sublist _

/-- Where no number ends the reading, each tag is found or refused. -/
theorem collect_of_not_overflow (h : (collect read tags).overflow = false) :
    (collect read tags).found = tags.filterMap (fun t => (read t).result?) ∧
      (collect read tags).refused.map Prod.fst = tags.filter fun t => (read t).result?.isNone := by
  induction tags with
  | nil => exact ⟨rfl, rfl⟩
  | cons t tags ih =>
    rw [collect] at h ⊢
    cases hread : read t with
    | found a =>
      rw [hread] at h
      obtain ⟨hfound, hrefused⟩ := ih h
      simp [hread, Reading.result?, hfound, hrefused]
    | refused message =>
      rw [hread] at h
      obtain ⟨hfound, hrefused⟩ := ih h
      simp [hread, Reading.result?, hfound, hrefused]
    | overflow =>
      rw [hread] at h
      cases h

theorem overflow_collect (h : ∀ t ∈ tags, read t ≠ .overflow) :
    (collect read tags).overflow = false := by
  induction tags with
  | nil => rfl
  | cons t tags ih =>
    obtain ⟨hfirst, hrest⟩ := List.forall_mem_cons.mp h
    rw [collect]
    cases hread : read t with
    | found a => exact ih hrest
    | refused message => exact ih hrest
    | overflow => exact absurd hread hfirst

end Collect

/-! ### Problems -/

namespace DocRule

variable {rule : DocRule} {s : Scope}

theorem problems_of_effect {problems : List (Tag × String)}
    (h : ∀ d, (rule.effect s d).1.diagnostics = d.diagnostics ++ problems.map (d.diagnostic s)) :
    rule.problems s = problems := by
  rw [DocRule.problems, h, List.nil_append, List.map_map]
  exact List.map_id problems

theorem problems_collecting {α : Type} (names : List String)
    (read : CharacterNames → Tag → Reading α) (store : Option (List α) → Record → Record)
    (s : Scope) :
    (collecting names read store).problems s =
      (collect (read s.charNames) (s.findAll names)).refused := by
  refine problems_of_effect fun d => ?_
  obtain ⟨logs, hlogs⟩ := d.reportAll_eq s (collect (read s.charNames) (s.findAll names)).refused
  simp only [collecting, hlogs]
  split <;> rfl

/-- A rule that reads the last tag of some names has no problem, or it has one with that tag, and
    then does not fail. -/
theorem problems_reading_cases (names : List String) (wanted : Descriptor.Wanted)
    (store : Option Descriptor → Record → Record) (s : Scope) :
    ((reading names wanted store).problems s = [] ∧ ∀ tag message, s.find? names = some tag →
        tag.value ≠ "" → readDescriptor wanted s.charNames tag ≠ .refused message) ∨
      ∃ tag message, s.find? names = some tag ∧ tag.value ≠ "" ∧
        readDescriptor wanted s.charNames tag = .refused message ∧
        (reading names wanted store).problems s = [(tag, message)] ∧
        ∀ d, ((reading names wanted store).effect s d).2 = none := by
  have hsilent : (∀ d, ((reading names wanted store).effect s d).1.diagnostics = d.diagnostics) →
      (reading names wanted store).problems s = [] := fun h =>
    problems_of_effect fun d => by rw [h, List.map_nil, List.append_nil]
  cases hfind : s.find? names with
  | none =>
    refine Or.inl ⟨hsilent fun d => ?_, nofun⟩
    simp only [reading, hfind]
  | some tag =>
    by_cases hempty : tag.value = ""
    · refine Or.inl ⟨hsilent fun d => ?_, ?_⟩
      · simp only [reading, hfind, hempty, String.isEmpty_iff.mpr, if_true]
      · rintro _ message ⟨rfl⟩ hne
        exact absurd hempty hne
    have hvalue : ¬ tag.value.isEmpty = true := by simpa using hempty
    cases hread : readDescriptor wanted s.charNames tag with
    | found a =>
      refine Or.inl ⟨hsilent fun d => ?_, ?_⟩
      · simp only [reading, hfind, if_neg hvalue, Draft.parse, hread]
      · rintro _ message ⟨rfl⟩ - hrefused
        cases hread.symm.trans hrefused
    | refused message =>
      refine Or.inr ⟨tag, message, rfl, hempty, hread, problems_of_effect fun d => ?_, fun d => ?_⟩
      · simp only [reading, hfind, if_neg hvalue, Draft.parse, hread]
        rfl
      · simp only [reading, hfind, if_neg hvalue, Draft.parse, hread]
    | overflow =>
      refine Or.inl ⟨hsilent fun d => ?_, ?_⟩
      · simp only [reading, hfind, if_neg hvalue, Draft.parse, hread]
      · rintro _ message ⟨rfl⟩ - hrefused
        cases hread.symm.trans hrefused

end DocRule

theorem problems_typedefNameRule (s : Scope) :
    typedefNameRule.problems s =
      (collect (readClauses typeAndName) (s.findAll ["@typedef"])).refused := by
  refine DocRule.problems_of_effect fun d => ?_
  obtain ⟨logs, hlogs⟩ :=
    d.reportAll_eq s (collect (readClauses typeAndName) (s.findAll ["@typedef"])).refused
  simp only [typedefNameRule, hlogs]
  split
  · next hempty =>
    rw [List.isEmpty_iff.mp hempty]
    exact (List.append_nil _).symm
  · rfl

/-! ### Responsibility -/

/-- The rules that report tags of a name. -/
def reporters : String → List String
  | "@emits" => ["emits"]
  | "@listens" => ["listens"]
  | "@param" => ["params"]
  | "@property" => ["properties"]
  | "@return" | "@returns" => ["returns"]
  | "@throws" => ["throws"]
  | "@type" => ["type"]
  | "@typedef" => ["name", "typedef"]
  | _ => []

/-- Only the tags of type definitions are reported by more than one rule. -/
theorem head?_reporters {name tagName : String} (h : name ∈ reporters tagName)
    (hname : name ≠ "typedef") : (reporters tagName).head? = some name := by
  unfold reporters at h ⊢
  split at h <;> simp_all

/-- A rule that reports some of the tags that it is responsible for, in their order. -/
structure DocRule.Reports (name : String) (rule : DocRule) : Prop where
  sublist : ∀ s, ((rule.problems s).map Prod.fst).Sublist s.tags
  responsible : ∀ s, ∀ tag ∈ (rule.problems s).map Prod.fst, name ∈ reporters tag.name

namespace DocRule.Reports

variable {name : String} {rule : DocRule}

/-- A rule that reports some of the tags of names that it is responsible for. -/
theorem of_findAll {names : List String} (hnames : ∀ tagName ∈ names, name ∈ reporters tagName)
    (h : ∀ s, ((rule.problems s).map Prod.fst).Sublist (s.findAll names)) : rule.Reports name := by
  refine ⟨fun s => (h s).trans List.filter_sublist, fun s tag htag => hnames tag.name ?_⟩
  simpa using (List.mem_filter.mp ((h s).subset htag)).2

theorem silent (h : ∀ s d, (rule.effect s d).1.diagnostics = d.diagnostics) :
    rule.Reports name := by
  have hproblems : ∀ s, rule.problems s = [] := fun s =>
    problems_of_effect fun d => by rw [h, List.map_nil, List.append_nil]
  refine ⟨fun s => ?_, fun s tag htag => ?_⟩
  · rw [hproblems]
    exact List.nil_sublist _
  · rw [hproblems] at htag
    cases htag

theorem collecting {α : Type} {names : List String} {read : CharacterNames → Tag → Reading α}
    {store : Option (List α) → Record → Record}
    (hnames : ∀ tagName ∈ names, name ∈ reporters tagName) :
    (DocRule.collecting names read store).Reports name := by
  refine of_findAll hnames fun s => ?_
  rw [problems_collecting]
  exact refused_collect_sublist (read s.charNames) _

theorem reading {names : List String} {wanted : Descriptor.Wanted}
    {store : Option Descriptor → Record → Record}
    (hnames : ∀ tagName ∈ names, name ∈ reporters tagName) :
    (DocRule.reading names wanted store).Reports name := by
  refine of_findAll hnames fun s => ?_
  rcases problems_reading_cases names wanted store s with
    ⟨hnone, -⟩ | ⟨tag, message, hfind, -, -, hone, -⟩
  · rw [hnone]
    exact List.nil_sublist _
  · rw [hone]
    exact List.singleton_sublist.mpr (List.mem_of_getLast? hfind)

end DocRule.Reports

theorem reports_longnameRule : longnameRule.Reports "longname" := by
  refine .silent fun s d => ?_
  simp only [longnameRule]
  split <;> rfl

theorem reports_decoratorsRule : decoratorsRule.Reports "decorators" := by
  refine .silent fun s d => ?_
  simp only [decoratorsRule]
  split <;> rfl

theorem reports_sharedRules : ∀ e ∈ sharedRules, e.2.Reports e.1 := by
  simp only [sharedRules, List.forall_mem_cons]
  exact ⟨.silent fun _ _ => rfl, .silent fun _ _ => rfl, .silent fun _ _ => rfl,
    .silent fun _ _ => rfl, reports_longnameRule, .silent fun _ _ => rfl, .silent fun _ _ => rfl,
    .silent fun _ _ => rfl, .silent fun _ _ => rfl, .collecting (by decide),
    .silent fun _ _ => rfl, .silent fun _ _ => rfl, .silent fun _ _ => rfl,
    .silent fun _ _ => rfl, .collecting (by decide), .silent fun _ _ => rfl,
    .collecting (by decide), .collecting (by decide), .reading (by decide),
    .silent fun _ _ => rfl, .silent fun _ _ => rfl, .silent fun _ _ => rfl,
    .collecting (by decide), .reading (by decide), .silent fun _ _ => rfl,
    .silent fun _ _ => rfl, reports_decoratorsRule, List.forall_mem_nil _⟩

theorem reports_extendsRule : extendsRule.Reports "extends" := by
  refine .silent fun s d => ?_
  simp only [extendsRule]
  split
  · rfl
  split
  · rfl
  split
  · rfl
  · rfl
  · next location _ _ =>
    rcases selectParent_cases s location with ⟨e, hfails⟩ | hnothing | ⟨parent, hparent⟩
    · rw [hfails]
    · obtain ⟨logs, hlogs⟩ := hnothing d
      rw [hlogs]
    · rw [hparent]

theorem reports_typedefNameRule : typedefNameRule.Reports "name" := by
  have hnames : ∀ tagName ∈ ["@typedef"], "name" ∈ reporters tagName := by decide
  refine .of_findAll hnames fun s => ?_
  rw [problems_typedefNameRule]
  exact refused_collect_sublist _ _

theorem reports_externalNameRule : externalNameRule.Reports "name" := by
  refine .silent fun s d => ?_
  simp only [externalNameRule]
  split <;> rfl

end Rule

namespace Category

open Rule

theorem reports_compose {kind : String} {special : Named DocRule}
    (h : ∀ e ∈ special, e.2.Reports e.1) : ∀ e ∈ compose kind special, e.2.Reports e.1 := by
  refine Named.forall_mem_putAll (List.forall_mem_cons.mpr ⟨?_, reports_sharedRules⟩) h
  exact .silent fun _ _ => rfl

/-- All rules of all categories report only tags that they are responsible for. -/
theorem reports_of_mem_all : ∀ c ∈ all, ∀ e ∈ c.rules, e.2.Reports e.1 := by
  have hmodule : ∀ e ∈ moduleRules, e.2.Reports e.1 := by
    simp only [moduleRules, List.forall_mem_cons]
    exact ⟨.silent fun _ _ => rfl, .silent fun _ _ => rfl, .silent fun _ _ => rfl,
      .silent fun _ _ => rfl, List.forall_mem_nil _⟩
  have hcallable : ∀ e ∈ callableRules, e.2.Reports e.1 := by
    simp only [callableRules, List.forall_mem_cons]
    exact ⟨.silent fun _ _ => rfl, List.forall_mem_nil _⟩
  have hfile : ∀ e ∈ fileRules, e.2.Reports e.1 := by
    simp only [fileRules, List.forall_mem_cons]
    exact ⟨.silent fun _ _ => rfl, .silent fun _ _ => rfl, .silent fun _ _ => rfl,
      .silent fun _ _ => rfl, .silent fun _ _ => rfl, List.forall_mem_nil _⟩
  have hclass : ∀ e ∈ classRules, e.2.Reports e.1 := by
    simp only [classRules, List.forall_mem_cons]
    exact ⟨reports_extendsRule, .silent fun _ _ => rfl, .silent fun _ _ => rfl,
      List.forall_mem_nil _⟩
  simp only [all, List.forall_mem_cons]
  refine ⟨reports_compose hfile, reports_compose hfile,
    reports_compose (List.forall_mem_append.mpr ⟨hfile, ?memory⟩),
    reports_compose (List.forall_mem_append.mpr ⟨hmodule, hclass⟩),
    reports_compose (List.forall_mem_append.mpr ⟨hmodule, hcallable⟩),
    reports_compose hmodule, reports_compose hmodule, reports_compose ?member,
    reports_compose ?member,
    reports_compose (List.forall_mem_append.mpr ⟨?method, hcallable⟩),
    reports_compose ?typedef, reports_compose ?external, reports_compose ?test,
    List.forall_mem_nil _⟩
  all_goals simp only [List.forall_mem_cons]
  case memory | member => exact ⟨.silent fun _ _ => rfl, List.forall_mem_nil _⟩
  case method => exact ⟨.silent fun _ _ => rfl, .silent fun _ _ => rfl, List.forall_mem_nil _⟩
  case typedef =>
    exact ⟨.silent fun _ _ => rfl, reports_typedefNameRule, .reading (by decide),
      List.forall_mem_nil _⟩
  case external =>
    exact ⟨.silent fun _ _ => rfl, reports_externalNameRule, .silent fun _ _ => rfl,
      List.forall_mem_nil _⟩
  case test =>
    exact ⟨.silent fun _ _ => rfl, .silent fun _ _ => rfl, .silent fun _ _ => rfl,
      List.forall_mem_nil _⟩

/-- The tags that the rule of a name reports. -/
def tagsReported (c : Category) (s : Scope) (name : String) : List Tag :=
  match c.rules.get? name with
  | some rule => (rule.problems s).map Prod.fst
  | none => []

section Tags

variable {c : Category}

theorem tagsReported_sublist (hc : c ∈ all) (s : Scope) (name : String) :
    (c.tagsReported s name).Sublist s.tags := by
  rw [tagsReported]
  split
  · next rule hrule => exact (reports_of_mem_all c hc _ (Named.mem_of_get? hrule)).sublist s
  · exact List.nil_sublist _

theorem mem_reporters (hc : c ∈ all) {s : Scope} {name : String} {tag : Tag}
    (h : tag ∈ c.tagsReported s name) : name ∈ reporters tag.name := by
  rw [tagsReported] at h
  split at h
  · next rule hrule =>
    exact (reports_of_mem_all c hc _ (Named.mem_of_get? hrule)).responsible s tag h
  · cases h

end Tags

end Category

end DocGraph
