import DocGraph.Proofs.Descriptor.Outcome
import DocGraph.Proofs.Interpretation.Reordering
import DocGraph.Proofs.Rule.Reporting

/-! The lists of descriptors in a record.

    Five rules read all tags of one name and list what they find. Each tag of the name is either
    found or reported, and nothing else reports it, so a list and the diagnostics together account
    for every tag (`interpret_listings`). -/

namespace DocGraph

open Rule

/-! ### Rules that are shared -/

/-- The rules that are set for a category leave those of other names alone. -/
theorem Category.get?_compose {kind name : String} {special : Named DocRule} (hkind : name ≠ "kind")
    (h : name ∉ special.names) :
    (compose kind special).get? name = sharedRules.get? name := by
  rw [compose, Named.get?_putAll_of_not_mem h, Named.get?, if_neg hkind.symm]

/-! ### The five listings -/

/-- A list of descriptors that a record has. -/
inductive Listing where
  | params
  | properties
  | throws
  | emits
  | listens

namespace Listing

/-- The name of the rule that makes the list. -/
def rule : Listing → String
  | params => "params"
  | properties => "properties"
  | throws => "throws"
  | emits => "emits"
  | listens => "listens"

/-- The name of the tags that are listed. -/
def tag : Listing → String
  | params => "@param"
  | properties => "@property"
  | throws => "@throws"
  | emits => "@emits"
  | listens => "@listens"

/-- What a tag of the list should hold. -/
def wanted : Listing → Descriptor.Wanted
  | params | properties => .all
  | throws | emits | listens => typed

/-- The list in a record. -/
def entries : Listing → Record → Option (List Descriptor)
  | params, r => r.params
  | properties, r => r.properties
  | throws, r => r.throws
  | emits, r => r.emits
  | listens, r => r.listens

/-- A record with the list, if there is one. -/
def store : Listing → Option (List Descriptor) → Record → Record
  | params, ds, r => { r with params := ds <|> r.params }
  | properties, ds, r => { r with properties := ds <|> r.properties }
  | throws, ds, r => { r with throws := ds }
  | emits, ds, r => { r with emits := ds }
  | listens, ds, r => { r with listens := ds }

/-- How a tag of the list is read. -/
def read : Listing → CharacterNames → Tag → Reading Descriptor
  | params => readParam
  | properties => readDescriptor .all
  | throws | emits | listens => readDescriptor typed

theorem entries_store (l : Listing) {r : Record} (h : l.entries r = none)
    (found : Option (List Descriptor)) : l.entries (l.store found r) = found := by
  cases l with
  | params | properties =>
    rw [entries] at h
    cases found <;> simp [entries, store, h]
  | throws | emits | listens => rfl

theorem entries_congr (l : Listing) {r r' : Record} (h : AgreeOn [l.rule] r r') :
    l.entries r = l.entries r' := by
  have hown := h l.rule (List.mem_singleton_self _)
  cases l with
  | params => exact hown .params rfl
  | properties => exact hown .properties rfl
  | throws => exact hown .throws rfl
  | emits => exact hown .emits rfl
  | listens => exact hown .listens rfl

theorem reporters_tag (l : Listing) : reporters l.tag = [l.rule] := by
  cases l <;> rfl

/-- The names of the five rules. -/
def ruleNames : List String := ["params", "properties", "throws", "emits", "listens"]

/-- Every category has the five rules. -/
theorem mem_rules (l : Listing) : ∀ c ∈ Category.all,
    (l.rule, DocRule.collecting [l.tag] l.read l.store) ∈ c.rules := by
  have hname : l.rule ∈ ruleNames := by cases l <;> decide
  have hshared : sharedRules.get? l.rule = some (.collecting [l.tag] l.read l.store) := by
    cases l <;> rfl
  have hcompose : ∀ {kind : String} {special : Named DocRule},
      (∀ name ∈ special.names, name ∉ "kind" :: ruleNames) →
      (l.rule, DocRule.collecting [l.tag] l.read l.store) ∈ Category.compose kind special := by
    intro kind special hspecial
    have hnew : l.rule ∉ special.names := fun hmem =>
      hspecial _ hmem (List.mem_cons_of_mem _ hname)
    have hkind : l.rule ≠ "kind" := by cases l <;> decide
    exact Named.mem_of_get? ((Category.get?_compose hkind hnew).trans hshared)
  simp only [Category.all, List.forall_mem_cons]
  exact ⟨hcompose (by decide +kernel), hcompose (by decide +kernel), hcompose (by decide +kernel),
    hcompose (by decide +kernel), hcompose (by decide +kernel), hcompose (by decide +kernel),
    hcompose (by decide +kernel), hcompose (by decide +kernel), hcompose (by decide +kernel),
    hcompose (by decide +kernel), hcompose (by decide +kernel), hcompose (by decide +kernel),
    hcompose (by decide +kernel), List.forall_mem_nil _⟩

end Listing

/-! ### Reading tags -/

namespace Rule

theorem result?_ofRefined (refined : Except Descriptor.Fault Descriptor) :
    (ofRefined refined).result? = refined.toOption := by
  rcases refined with (_ | _) | _ <;> rfl

/-- A parameter without a type or a name is no descriptor either. -/
theorem result?_readParam [names : CharacterNames] (t : Tag) :
    (readParam names t).result? = (Descriptor.parse .all t.value).toOption := by
  obtain ⟨type, rest, hhead⟩ := Descriptor.exists_headed .all (Text.trim t.value.toList)
  by_cases hunnamed : Descriptor.Unnamed .all rest
  · rcases hhead.split_of_unnamed hunnamed with hsplit | hsplit <;>
      simp only [readParam, Descriptor.parse, hsplit] <;> rfl
  obtain ⟨clauses, hsplit, htype, hname⟩ := hhead.split_of_named hunnamed
  obtain ⟨-, text, htext, hne, -⟩ := hname.resolve_left fun h => absurd h.1 (by decide)
  have hfilled : Record.filled clauses.nameText = some (String.ofList text) := by
    simp [htext, Record.filled, hne]
  rw [Descriptor.Wanted.all, if_pos rfl] at htype
  by_cases hempty : type = []
  · -- an empty type text has no alternative but the empty one
    subst hempty
    have hparts : Descriptor.typePart clauses.typeText = ([[]], none, false) := by
      rw [htype]
      decide
    simp only [readParam, Descriptor.parse, hsplit, htype,
      Descriptor.refine_of_nil_mem hparts (List.mem_singleton_self _)]
    rfl
  · have htyped : Record.filled clauses.typeText = some (String.ofList type) := by
      simp [htype, Record.filled, hempty]
    simp only [readParam, Descriptor.parse, hsplit, htyped, hfilled]
    exact result?_ofRefined _

/-- A rule that collects, and does not fail, stores what it found, if there was anything to read. -/
theorem effect_collecting {α : Type} {names : List String} {read : CharacterNames → Tag → Reading α}
    {store : Option (List α) → Record → Record} {s : Scope} {d : Draft}
    (h : ((DocRule.collecting names read store).effect s d).2 = none) :
    (collect (read s.charNames) (s.findAll names)).overflow = false ∧
      ((DocRule.collecting names read store).effect s d).1.record =
        store (if s.findAll names = [] then none
          else some (collect (read s.charNames) (s.findAll names)).found) d.record := by
  obtain ⟨logs, hlogs⟩ := d.reportAll_eq s (collect (read s.charNames) (s.findAll names)).refused
  simp only [DocRule.collecting, hlogs] at h ⊢
  cases hover : (collect (read s.charNames) (s.findAll names)).overflow with
  | true =>
    rw [hover] at h
    cases h
  | false =>
    simp only [Bool.false_eq_true, if_false, List.isEmpty_iff]
    trivial

end Rule

theorem Listing.result?_read [names : CharacterNames] (l : Listing) (t : Tag) :
    (l.read names t).result? = (Descriptor.parse l.wanted t.value).toOption := by
  cases l with
  | params => exact result?_readParam t
  | properties => exact result?_ofRefined (Descriptor.parse .all t.value)
  | throws | emits | listens => exact result?_ofRefined (Descriptor.parse typed t.value)

/-! ### Whole interpretations -/

namespace Interpretation

variable {c : Category} {strict : Bool} {s : Scope} {blank : Record}

/-- Out of names without repetition, only one contributes. -/
theorem flatMap_eq_of_unique {β : Type} {names : List String} {name : String}
    {f : String → List β} (hnodup : names.Nodup) (hmem : name ∈ names)
    (h : ∀ other ∈ names, other ≠ name → f other = []) : names.flatMap f = f name := by
  obtain ⟨front, back, rfl⟩ := List.append_of_mem hmem
  obtain ⟨hfront, hback⟩ := List.forall_mem_append.mp h
  have hnew := List.nodup_middle.mp hnodup
  rw [List.nodup_cons, List.mem_append, not_or] at hnew
  have hnone : front.flatMap f = [] := List.flatMap_eq_nil_iff.mpr fun other hother =>
    hfront other hother fun he => hnew.1.1 (he ▸ hother)
  have hnone' : back.flatMap f = [] := List.flatMap_eq_nil_iff.mpr fun other hother =>
    hback other (List.mem_cons_of_mem _ hother) fun he => hnew.1.2 (he ▸ hother)
  rw [List.flatMap_append, List.flatMap_cons, hnone, hnone', List.nil_append, List.append_nil]

theorem reported_of_mem_rules (hc : Orderly c.rules) {name : String} {rule : DocRule}
    (hrule : (name, rule) ∈ c.rules) (id : Int) :
    reported c s id name =
      (rule.problems s).map fun p => ⟨id, s.symbol.filePath, p.1.name, p.1.value, p.2⟩ := by
  rw [reported, Named.get?_of_mem hc.nodup hrule]

theorem tag_mem_tagsReported {id : Int} {name : String} {d : Diagnostic}
    (h : d ∈ reported c s id name) : d.tag ∈ c.tagsReported s name := by
  cases hrule : c.rules.get? name with
  | none => simp [reported, hrule] at h
  | some rule =>
    simp only [reported, hrule] at h
    obtain ⟨problem, hproblem, rfl⟩ := List.mem_map.mp h
    simp only [Category.tagsReported, hrule]
    exact List.mem_map_of_mem hproblem

theorem findAll_singleton (s : Scope) (name : String) :
    s.findAll [name] = s.tags.filter fun t => t.name = name :=
  List.filter_congr fun t _ => by simp

theorem length_filterMap_add_length_filter {α β : Type} (read : α → Option β) (items : List α) :
    (items.filterMap read).length + (items.filter fun a => (read a).isNone).length =
      items.length := by
  rw [List.length_filterMap_eq_countP, ← List.countP_eq_length_filter,
    List.length_eq_countP_add_countP fun a => (read a).isSome]
  refine congrArg _ (List.countP_congr fun a _ => ?_)
  simp

/-- An interpretation that ends well is a run of the rules of a category that ends well. -/
theorem exists_runOf_of_interpret (h : (interpret strict s blank).2 = none) :
    ∃ c ∈ Category.all, (runOf c strict s blank).2 = none ∧
      (interpret strict s blank).1.record =
        { (runOf c strict s blank).1.state.record with
          tagsKnown := (splitTags c s.tags).1, tagsUnknown := (splitTags c s.tags).2 } ∧
      (interpret strict s blank).1.diagnostics = (runOf c strict s blank).1.state.diagnostics := by
  rw [interpret] at h ⊢
  split at h
  · cases h
  · next c hfind =>
    have hrun := interpretAs_eq_none_iff.mp h
    refine ⟨c, List.mem_of_find?_eq_some hfind, hrun, ?_, ?_⟩ <;>
      simp only [interpretAs_of_runOf hrun]

/-- What a run that ends well leaves of the tags of a listing: a list of those that can be read, and
    a diagnostic for each of the others. -/
theorem listing_runOf (hc : c ∈ Category.all) (hblank : blank.filePath = .null) (l : Listing)
    (hlist : l.entries blank = none) (h : (runOf c strict s blank).2 = none) :
    let tags := s.findAll [l.tag]
    let read (t : Tag) := (@Descriptor.parse s.charNames l.wanted t.value).toOption
    l.entries (runOf c strict s blank).1.state.record =
        (if tags = [] then none else some (tags.filterMap read)) ∧
      ((runOf c strict s blank).1.state.diagnostics.filter fun d => d.tagName = l.tag).map
          (fun d => (d.recordId, d.tag)) =
        (tags.filter fun t => (read t).isNone).map fun t => (blank.id, t) := by
  intro tags read
  have horderly := Category.orderly_of_mem_all c hc
  have hrule := l.mem_rules c hc
  have hfull := filled_runOf horderly h
  obtain ⟨hok, hagree⟩ := hfull.fits _ hrule ⟨blank, [], []⟩ (fun _ _ _ _ => rfl) nofun
  obtain ⟨hover, hrecord⟩ := effect_collecting hok
  obtain ⟨hfound, hrefused⟩ := collect_of_not_overflow hover
  simp only [Listing.result?_read] at hfound hrefused
  constructor
  · rw [← l.entries_congr hagree, hrecord, hfound]
    exact l.entries_store hlist _
  · -- among the diagnostics of all rules, those with the tag's name come from the list's own rule
    obtain ⟨-, -, hdiagnostics⟩ := runOf_of_filled horderly hblank hfull strict
    have happlied := applied_runOf horderly h
    have hothers : ∀ name ∈ (runOf c strict s blank).1.applied, name ≠ l.rule →
        (reported c s blank.id name).filter (fun d => d.tagName = l.tag) = [] := by
      refine fun name _ hne => List.filter_eq_nil_iff.mpr fun d hd htag => hne ?_
      have hresponsible : name ∈ reporters d.tagName :=
        Category.mem_reporters hc (tag_mem_tagsReported hd)
      rw [of_decide_eq_true htag, l.reporters_tag] at hresponsible
      exact List.mem_singleton.mp hresponsible
    have hown : ∀ d ∈ reported c s blank.id l.rule, decide (d.tagName = l.tag) = true := by
      rw [reported_of_mem_rules horderly hrule, DocRule.problems_collecting]
      intro d hd
      obtain ⟨problem, hproblem, rfl⟩ := List.mem_map.mp hd
      have hread := (refused_collect_sublist _ _).subset (List.mem_map_of_mem hproblem)
      simpa using (List.mem_filter.mp hread).2
    rw [hdiagnostics, List.filter_flatMap, flatMap_eq_of_unique
      (happlied.nodup_iff.mpr horderly.nodup) (happlied.mem_iff.mpr (List.mem_map_of_mem hrule))
      hothers, List.filter_eq_self.mpr hown, reported_of_mem_rules horderly hrule,
      DocRule.problems_collecting, ← hrefused, List.map_map, List.map_map]
    rfl

/-- Each of the five lists accounts for its tags. When a fresh record has been filled in, whatever
    its category, the list is missing exactly if there is no tag of its name; else it holds what the
    tags that can be read describe, in their order. The diagnostics with the name of the tags are
    one for each of the others, in their order, with the tag and the number of the record. -/
theorem interpret_listings (category : String) (strict : Bool) (s : Scope) (id : Int)
    (moduleId : Option Int) :
    let result := interpret strict s { id := id, category := category, moduleId := moduleId }
    result.2 = none → ∀ l : Listing,
      let tags := s.tags.filter fun t => t.name = l.tag
      let read (t : Tag) := (@Descriptor.parse s.charNames l.wanted t.value).toOption
      let diagnostics := result.1.diagnostics.filter fun d => d.tagName = l.tag
      (l.entries result.1.record = none ↔ tags = []) ∧
        (tags ≠ [] → l.entries result.1.record = some (tags.filterMap read)) ∧
        diagnostics.map (fun d => (d.recordId, d.tag)) =
          (tags.filter fun t => (read t).isNone).map (fun t => (id, t)) ∧
        ((l.entries result.1.record).getD []).length + diagnostics.length = tags.length := by
  intro result hend l tags read diagnostics
  obtain ⟨c, hc, hrun, hrecord, hdiagnostics⟩ := exists_runOf_of_interpret hend
  have htags : s.findAll [l.tag] = tags := findAll_singleton s l.tag
  obtain ⟨hentries, hreports⟩ := listing_runOf hc rfl l (by cases l <;> rfl) hrun
  rw [htags] at hentries hreports
  have hlist : l.entries result.1.record =
      if tags = [] then none else some (tags.filterMap read) := by
    rw [← hentries, hrecord]
    cases l <;> rfl
  have hreports' : diagnostics.map (fun d => (d.recordId, d.tag)) =
      (tags.filter fun t => (read t).isNone).map (fun t => (id, t)) := by
    rw [← hreports, ← hdiagnostics]
  have hcount : ((l.entries result.1.record).getD []).length = (tags.filterMap read).length := by
    rw [hlist]
    split
    · next hnone => rw [hnone]; rfl
    · rfl
  refine ⟨?_, fun hsome => ?_, hreports', ?_⟩
  · rw [hlist]
    split <;> simp [*]
  · rw [hlist, if_neg hsome]
  · have hlength := congrArg List.length hreports'
    rw [List.length_map, List.length_map] at hlength
    rw [hcount, hlength, length_filterMap_add_length_filter]

/-- A class with two parameters, of which one has no name, and two events, of which one lacks an
    alternative of its type. -/
def listedClass : Scope where
  tags := [⟨"@param", "{number} x - a number"⟩, ⟨"@emits", "{Event|}"⟩, ⟨"@param", "{number}"⟩,
    ⟨"@emits", "{Event} when changed"⟩]
  symbol := { Symbol.ofFile (.str "a.js") with name := .str "A" }
  files := ⟨[], []⟩
  charNames := .none

theorem interpret_listings_class :
    let result := interpret true listedClass { id := 7, category := "Class" }
    result.2 = none ∧
      Listing.params.entries result.1.record =
        some [⟨["number"], none, false, some ⟨"x", false, none⟩, some "a number"⟩] ∧
      (result.1.diagnostics.filter fun d => d.tagName = "@emits").map
        (fun d => (d.recordId, d.tag)) = [(7, ⟨"@emits", "{Event|}"⟩)] := by
  intro result
  have hend : result.2 = none := Option.isNone_iff_eq_none.mp (by decide +kernel)
  obtain ⟨-, hparams, -⟩ := interpret_listings "Class" true listedClass 7 none hend .params
  obtain ⟨-, -, hemits, -⟩ := interpret_listings "Class" true listedClass 7 none hend .emits
  refine ⟨hend, hparams (by decide +kernel), hemits.trans ?_⟩
  decide +kernel

end Interpretation

end DocGraph
