import DocGraph.Proofs.Interpretation.Listings

/-! How often a tag is reported.

    What an interpretation reports is what the rules report that it came to, each of them once. Tags
    of one name are the business of one rule, so no tag is reported more often than it is there.
    Only the tags of type definitions are read by two rules, for the name and for the type, and both
    report a last one that has no name (`interpret_reports`). -/

namespace DocGraph.Interpretation

open Rule

variable {c : Category} {strict : Bool} {s : Scope} {blank : Record} {tag : Tag}

/-! ### What a run reports -/

theorem tagsReported_of_mem (hc : Orderly c.rules) {name : String} {rule : DocRule}
    (hrule : (name, rule) ∈ c.rules) :
    c.tagsReported s name = (rule.problems s).map Prod.fst := by
  rw [Category.tagsReported, Named.get?_of_mem hc.nodup hrule]

theorem map_tag_effect (hc : Orderly c.rules) {name : String} {rule : DocRule}
    (hrule : (name, rule) ∈ c.rules) (d : Draft) :
    (rule.effect s d).1.diagnostics.map Diagnostic.tag =
      d.diagnostics.map Diagnostic.tag ++ c.tagsReported s name := by
  rw [(hc.disciplined _ hrule).diagnostics_eq, List.map_append, List.map_map,
    tagsReported_of_mem hc hrule]
  rfl

/-- What has been reported is what the rules that have been applied report. -/
def Accounts (c : Category) (s : Scope) (p : Progress Draft) : Prop :=
  p.state.diagnostics.map Diagnostic.tag = p.applied.flatMap (c.tagsReported s)

theorem Accounts.skip {p : Progress Draft} {name : String} (hp : Accounts c s p)
    (hname : name ∉ c.rules.names) : Accounts c s ⟨p.state.skip name, p.applied ++ [name]⟩ := by
  have hnone : c.tagsReported s name = [] := by
    rw [Category.tagsReported, Named.not_mem_names_iff.mp hname]
  show p.state.diagnostics.map Diagnostic.tag = _
  rw [hp, List.flatMap_append, List.flatMap_singleton, hnone, List.append_nil]

theorem Accounts.apply {p : Progress Draft} {name : String} {rule : DocRule}
    (hp : Accounts c s p) (hc : Orderly c.rules) (hrule : (name, rule) ∈ c.rules) :
    Accounts c s ⟨(rule.effect s p.state).1, p.applied ++ [name]⟩ := by
  show (rule.effect s p.state).1.diagnostics.map Diagnostic.tag = _
  rw [map_tag_effect hc hrule, hp, List.flatMap_append, List.flatMap_singleton]

/-- A run reports what the rules report that it has applied, and when a rule fails in the end, what
    that one reports as well. -/
theorem accounts_runOf (hc : Orderly c.rules) :
    (Accounts c s (runOf c strict s blank).1 ∧ (runOf c strict s blank).2 = none) ∨
      ∃ name rule d, name ∉ (runOf c strict s blank).1.applied ∧ (name, rule) ∈ c.rules ∧
        (rule.effect s d).2 ≠ none ∧ (runOf c strict s blank).2 ≠ none ∧
        (runOf c strict s blank).1.state.diagnostics.map Diagnostic.tag =
          ((runOf c strict s blank).1.applied ++ [name]).flatMap (c.tagsReported s) := by
  rcases runOf_keeps (c := c) (P := Accounts c s) (fun hp _ hname => hp.skip hname)
    (fun hp _ hmem _ _ => hp.apply hc hmem) rfl with
    ⟨hend, hfine⟩ | ⟨p, name, rule, hp, hnew, hmem, _, hfails, hstate, happlied, hhalt⟩
  · exact Or.inl ⟨hend, runOf_eq_none hc hfine⟩
  · refine Or.inr ⟨name, rule, p.state, ?_, hmem, hfails, hhalt, ?_⟩
    · rwa [happlied]
    · rw [hstate, happlied]
      exact hp.apply hc hmem

/-! ### Type definitions -/

theorem eq_typedef_or_of_mem_all : ∀ c ∈ Category.all,
    c = Category.typedef ∨ "typedef" ∉ c.rules.names ∧ c.name ≠ "Typedef" := by
  simp only [Category.all, List.forall_mem_cons]
  exact ⟨.inr (by decide +kernel), .inr (by decide +kernel), .inr (by decide +kernel),
    .inr (by decide +kernel), .inr (by decide +kernel), .inr (by decide +kernel),
    .inr (by decide +kernel), .inr (by decide +kernel), .inr (by decide +kernel),
    .inr (by decide +kernel), .inl trivial, .inr (by decide +kernel), .inr (by decide +kernel),
    List.forall_mem_nil _⟩

theorem mem_rules_typedef : ("name", typedefNameRule) ∈ Category.typedef.rules ∧
    ("typedef", typedefRule) ∈ Category.typedef.rules :=
  ⟨Named.mem_of_get? rfl, Named.mem_of_get? rfl⟩

theorem typedef_mem_all : Category.typedef ∈ Category.all := by
  simp [Category.all]

/-- The rule for the defined type comes last, so where it is applied no rule has failed. -/
theorem typedef_not_mem_applied (hc : c ∈ Category.all) (h : (runOf c strict s blank).2 ≠ none) :
    "typedef" ∉ (runOf c strict s blank).1.applied := by
  have hlast : ∀ c ∈ Category.all, "typedef" ∉ (bootstrap ++ c.rules.names).dropLast := by
    decide +kernel
  have hneeds : ∀ c ∈ Category.all, ∀ e ∈ c.rules, "typedef" ∉ e.2.needs := by decide +kernel
  have hall : ∀ name ∈ (runOf c strict s blank).1.applied, name ≠ "typedef" := by
    refine (evaluates_run (evaluator c strict s) (.start ⟨blank, [], []⟩)).forall_applied_ne_last
      h ?_ ?_ nofun
    · rintro name _ ⟨_, hrule, hneed⟩ rfl
      obtain ⟨rule, hmem, rfl⟩ := exists_of_get?_registry hrule
      exact hneeds c hc _ hmem hneed
    · show "typedef" ∉ (bootstrap ++ (c.registry s).names).dropLast
      rw [names_registry]
      exact hlast c hc
  exact fun hmem => hall _ hmem rfl

/-- A rule that fails over the defined type has not reported it. -/
theorem tagsReported_of_failed (hc : c ∈ Category.all) {rule : DocRule} {d : Draft}
    (hrule : ("typedef", rule) ∈ c.rules) (h : (rule.effect s d).2 ≠ none) :
    c.tagsReported s "typedef" = [] := by
  have horderly := Category.orderly_of_mem_all c hc
  obtain rfl := (eq_typedef_or_of_mem_all c hc).resolve_right fun hnot =>
    hnot.1 (List.mem_map_of_mem hrule)
  obtain rfl := Named.eq_of_mem horderly.nodup hrule mem_rules_typedef.2
  rw [tagsReported_of_mem horderly hrule]
  rcases DocRule.problems_reading_cases ["@typedef"] typeAndName _ s with
    ⟨hnone, -⟩ | ⟨_, _, -, -, -, -, hfine⟩
  · exact congrArg (List.map Prod.fst) hnone
  · exact absurd (hfine d) h

/-- What a run reports is what some rules report, each of them once: all of them when it ends well,
    and when it does not, not the one for the defined type. -/
theorem exists_names_runOf (hc : c ∈ Category.all) (strict : Bool) (s : Scope) (blank : Record) :
    ∃ names : List String, names.Nodup ∧
    (runOf c strict s blank).1.state.diagnostics.map Diagnostic.tag =
      names.flatMap (c.tagsReported s) ∧
    ((runOf c strict s blank).2 = none ∧ names.Perm c.rules.names ∨
      (runOf c strict s blank).2 ≠ none ∧ "typedef" ∉ names) := by
  have horderly := Category.orderly_of_mem_all c hc
  have hnodup : (runOf c strict s blank).1.applied.Nodup := (settled_run _ .nil).nodup
  rcases accounts_runOf horderly with
    ⟨hend, hnone⟩ | ⟨name, rule, d, hnew, hrule, hfails, hhalt, hend⟩
  · exact ⟨_, hnodup, hend, Or.inl ⟨hnone, applied_runOf horderly hnone⟩⟩
  have hlast := typedef_not_mem_applied hc hhalt
  by_cases hname : name = "typedef"
  · subst hname
    refine ⟨_, hnodup, ?_, Or.inr ⟨hhalt, hlast⟩⟩
    rw [hend, List.flatMap_append, List.flatMap_singleton, tagsReported_of_failed hc hrule hfails,
      List.append_nil]
  · refine ⟨_, hnodup.concat hnew, by rw [List.concat_eq_append]; exact hend, Or.inr ⟨hhalt, ?_⟩⟩
    rw [List.concat_eq_append, List.mem_append, List.mem_singleton, not_or]
    exact ⟨hlast, Ne.symm hname⟩

/-! ### Counting reports -/

theorem count_flatMap_of_unique {names : List String} {name : String} {f : String → List Tag}
    (hnodup : names.Nodup) (hmem : name ∈ names)
    (h : ∀ other ∈ names, other ≠ name → tag ∉ f other) :
    (names.flatMap f).count tag = (f name).count tag := by
  have hothers : ∀ other ∈ names, other ≠ name → (f other).filter (· == tag) = [] := by
    intro other hother hne
    refine List.filter_eq_nil_iff.mpr fun t ht heq => h other hother hne ?_
    rwa [← beq_iff_eq.mp heq]
  rw [List.count, List.countP_eq_length_filter, List.filter_flatMap,
    flatMap_eq_of_unique hnodup hmem hothers, ← List.countP_eq_length_filter, ← List.count]

/-- Rules of different names, without the one for the defined type, report no tag more often than
    it is there. -/
theorem count_flatMap_le (hc : c ∈ Category.all) {names : List String} (hnodup : names.Nodup)
    (htypedef : "typedef" ∉ names) (tag : Tag) :
    (names.flatMap (c.tagsReported s)).count tag ≤ s.tags.count tag := by
  by_cases hsome : ∃ name ∈ names, tag ∈ c.tagsReported s name
  · obtain ⟨name, hname, hmem⟩ := hsome
    have hne : ∀ other ∈ names, other ≠ "typedef" := fun other hother he => htypedef (he ▸ hother)
    have hfirst := head?_reporters (Category.mem_reporters hc hmem) (hne name hname)
    have hothers : ∀ other ∈ names, other ≠ name → tag ∉ c.tagsReported s other := by
      intro other hother hdiff hmem'
      have hfirst' := head?_reporters (Category.mem_reporters hc hmem') (hne other hother)
      exact hdiff (Option.some.inj (hfirst'.symm.trans hfirst))
    rw [count_flatMap_of_unique hnodup hname hothers]
    exact (Category.tagsReported_sublist hc s name).count_le tag
  · have hnone : tag ∉ names.flatMap (c.tagsReported s) := by simpa using hsome
    rw [List.count_eq_zero_of_not_mem hnone]
    exact Nat.zero_le _

section Typedef

/-- The last tag of a type definition says something, but has no name. -/
def NamelessTypedef (s : Scope) (tag : Tag) : Prop :=
  s.find? ["@typedef"] = some tag ∧ tag.value ≠ "" ∧
    ∃ type rest, Descriptor.Headed typeAndName (Text.trim tag.value.toList) type rest ∧
      Descriptor.Nameless rest

theorem result?_readClauses (wanted : Descriptor.Wanted) (t : Tag) :
    (readClauses wanted t).result? = (Descriptor.split wanted t.value).toOption := by
  rw [readClauses]
  cases Descriptor.split wanted t.value <;> rfl

/-- The rule for the name reports the tags that cannot be cut into a type and a name. -/
theorem tagsReported_name (s : Scope) :
    Category.typedef.tagsReported s "name" = (s.findAll ["@typedef"]).filter fun t =>
      (Descriptor.split typeAndName t.value).toOption.isNone := by
  have hread : ∀ t ∈ s.findAll ["@typedef"], readClauses typeAndName t ≠ .overflow := by
    intro t _
    rw [readClauses]
    cases Descriptor.split typeAndName t.value <;> simp
  rw [tagsReported_of_mem (Category.orderly_of_mem_all _ typedef_mem_all) mem_rules_typedef.1,
    problems_typedefNameRule, (collect_of_not_overflow (overflow_collect hread)).2]
  simp only [result?_readClauses]

/-- A tag that cannot be cut into a type and a name is no descriptor either. -/
theorem readDescriptor_of_split {t : Tag}
    (h : (Descriptor.split typeAndName t.value).toOption = none) (names : CharacterNames) :
    ∃ message, readDescriptor typeAndName names t = .refused message := by
  cases hsplit : Descriptor.split typeAndName t.value with
  | ok clauses => simp [hsplit, Except.toOption] at h
  | error m => exact ⟨m.message, by simp only [readDescriptor, Descriptor.parse, hsplit, ofRefined]⟩

theorem namelessTypedef_iff :
    NamelessTypedef s tag ↔ s.find? ["@typedef"] = some tag ∧ tag.value ≠ "" ∧
      (Descriptor.split typeAndName tag.value).toOption = none := by
  refine and_congr_right fun _ => and_congr_right fun _ => ?_
  obtain ⟨type, rest, hhead⟩ := Descriptor.exists_headed typeAndName (Text.trim tag.value.toList)
  have hnone : (Descriptor.split typeAndName tag.value).toOption = none ↔
      ¬ ∃ clauses, Descriptor.split typeAndName tag.value = .ok clauses := by
    cases Descriptor.split typeAndName tag.value <;> simp [Except.toOption]
  rw [hnone, hhead.exists_split_iff, not_not]
  constructor
  · rintro ⟨type', rest', hhead', hnameless⟩
    obtain ⟨-, rfl⟩ := hhead.unique hhead'
    exact ⟨rfl, hnameless⟩
  · exact fun h => ⟨type, rest, hhead, h.2⟩

/-- The rule for the defined type reports nothing, or the last tag; it reports one without a
    name. -/
theorem tagsReported_typedef_cases (s : Scope) :
    (Category.typedef.tagsReported s "typedef" = [] ∧ ∀ tag, ¬ NamelessTypedef s tag) ∨
      ∃ last, Category.typedef.tagsReported s "typedef" = [last] ∧
        s.find? ["@typedef"] = some last ∧ last.value ≠ "" := by
  rw [tagsReported_of_mem (Category.orderly_of_mem_all _ typedef_mem_all) mem_rules_typedef.2]
  rcases DocRule.problems_reading_cases ["@typedef"] typeAndName _ s with
    ⟨hnone, hread⟩ | ⟨last, message, hfind, hvalue, -, hone, -⟩
  · refine Or.inl ⟨congrArg (List.map Prod.fst) hnone, fun tag hnameless => ?_⟩
    obtain ⟨hfind, hvalue, hsplit⟩ := namelessTypedef_iff.mp hnameless
    obtain ⟨message, hrefused⟩ := readDescriptor_of_split hsplit s.charNames
    exact hread tag message hfind hvalue hrefused
  · exact Or.inr ⟨last, congrArg (List.map Prod.fst) hone, hfind, hvalue⟩

/-- Without the rule for the defined type, a tag of a type definition is reported by the rule for
    the name: each time, or never. -/
theorem count_flatMap_typedef {names : List String} (hnodup : names.Nodup)
    (hname : "name" ∈ names) (htypedef : "typedef" ∉ names) (htag : tag.name = "@typedef") :
    (names.flatMap (Category.typedef.tagsReported s)).count tag =
      if (Descriptor.split typeAndName tag.value).toOption.isNone then s.tags.count tag else 0 := by
  have hunique : (names.flatMap (Category.typedef.tagsReported s)).count tag =
      (Category.typedef.tagsReported s "name").count tag := by
    refine count_flatMap_of_unique hnodup hname fun other hother hne hmem => hne ?_
    have hresponsible := Category.mem_reporters typedef_mem_all hmem
    have hfirst := head?_reporters hresponsible fun he => htypedef (he ▸ hother)
    rw [htag] at hfirst
    exact (Option.some.inj hfirst).symm
  rw [hunique, tagsReported_name]
  split
  · next hnone =>
    rw [List.count_filter (a := tag) hnone, Scope.findAll, List.count_filter (by simp [htag])]
  · next hsome =>
    exact List.count_eq_zero_of_not_mem fun hmem => hsome (List.mem_filter.mp hmem).2

/-- All rules of a type definition together report a tag no more often than it is there, unless it
    is the last one and has no name: then one time more. -/
theorem count_typedef {names : List String} (hperm : names.Perm Category.typedef.rules.names)
    (hnodup : names.Nodup) (tag : Tag) :
    NamelessTypedef s tag ∧ (names.flatMap (Category.typedef.tagsReported s)).count tag =
        s.tags.count tag + 1 ∨
      ¬ NamelessTypedef s tag ∧
        (names.flatMap (Category.typedef.tagsReported s)).count tag ≤ s.tags.count tag := by
  have hrules : ∀ name ∈ ["name", "typedef"], name ∈ Category.typedef.rules.names := by
    decide +kernel
  have hmem : ∀ name ∈ ["name", "typedef"], name ∈ names := fun name hname =>
    hperm.mem_iff.mpr (hrules name hname)
  let others := names.erase "typedef"
  have hothers : others.Nodup := hnodup.erase _
  have hnot : "typedef" ∉ others := hnodup.not_mem_erase
  have hname : "name" ∈ others := (List.mem_erase_of_ne (by decide)).mpr (hmem _ (by simp))
  have hsplit : (names.flatMap (Category.typedef.tagsReported s)).count tag =
      (Category.typedef.tagsReported s "typedef").count tag +
        (others.flatMap (Category.typedef.tagsReported s)).count tag := by
    have hfirst := (List.perm_cons_erase (hmem "typedef" (by simp))).flatMap_right
      (Category.typedef.tagsReported s)
    rw [hfirst.count_eq, List.flatMap_cons, List.count_append]
  have hrest : (others.flatMap (Category.typedef.tagsReported s)).count tag ≤ s.tags.count tag :=
    count_flatMap_le typedef_mem_all hothers hnot tag
  rcases tagsReported_typedef_cases s with ⟨hnone, hnameless⟩ | ⟨last, hone, hfind, hvalue⟩
  · refine Or.inr ⟨hnameless tag, ?_⟩
    rwa [hsplit, hnone, List.count_nil, Nat.zero_add]
  by_cases hlast : tag = last
  · subst hlast
    obtain ⟨htag, hread⟩ := List.mem_filter.mp (List.mem_of_getLast? hfind)
    rw [hsplit, hone, List.count_singleton_self, namelessTypedef_iff,
      count_flatMap_typedef hothers hname hnot (by simpa using hread)]
    by_cases hcut : (Descriptor.split typeAndName tag.value).toOption = none
    · refine Or.inl ⟨⟨hfind, hvalue, hcut⟩, ?_⟩
      rw [if_pos (Option.isNone_iff_eq_none.mpr hcut), Nat.add_comm]
    · refine Or.inr ⟨fun hnameless => hcut hnameless.2.2, ?_⟩
      rw [if_neg fun hnone => hcut (Option.isNone_iff_eq_none.mp hnone)]
      exact List.one_le_count_iff.mpr htag
  · refine Or.inr ⟨fun hnameless => hlast ?_, ?_⟩
    · exact Option.some.inj (hnameless.1.symm.trans hfind)
    · rw [hsplit, hone, List.count_singleton, if_neg (by simpa using Ne.symm hlast), Nat.zero_add]
      exact hrest

end Typedef

/-! ### Interpretation -/

theorem diagnostics_interpretAs (c : Category) (strict : Bool) (s : Scope) (blank : Record) :
    (interpretAs c strict s blank).1.diagnostics =
      (runOf c strict s blank).1.state.diagnostics := by
  rw [interpretAs, ← runOf]
  split <;> simp [*]

/-- Whatever the category, and whether or not it ends well, an interpretation reports a tag no more
    often than it is there, unless it has filled in a type definition whose last tag this is and has
    no name. Then it reports the tag one time more. -/
theorem interpret_reports (category : String) (strict : Bool) (s : Scope) (id : Int)
    (moduleId : Option Int) (tag : Tag) :
    let result := interpret strict s { id := id, category := category, moduleId := moduleId }
    let reports := (result.1.diagnostics.map Diagnostic.tag).count tag
    (reports ≤ s.tags.count tag ↔
        ¬ (result.2 = none ∧ category = "Typedef" ∧ NamelessTypedef s tag)) ∧
      reports ≤ s.tags.count tag + 1 := by
  intro result reports
  let blank : Record := { id := id, category := category, moduleId := moduleId }
  cases hfind : Category.find? category with
  | none =>
    have hresult : result = (⟨blank, [], []⟩, some (.unknownCategory category)) := by
      simp only [result, interpret, hfind, blank]
    simp [reports, hresult]
  | some c =>
    have hc : c ∈ Category.all := List.mem_of_find?_eq_some hfind
    have hname : c.name = category := by simpa using List.find?_some hfind
    have hresult : result = interpretAs c strict s blank := by
      simp only [result, interpret, blank, hfind]
    obtain ⟨names, hnodup, hnames, hcases⟩ := exists_names_runOf hc strict s blank
    have hreports : reports = (names.flatMap (c.tagsReported s)).count tag := by
      rw [← hnames, ← diagnostics_interpretAs, ← hresult]
    have hend : result.2 = none ↔ (runOf c strict s blank).2 = none := by
      rw [hresult, interpretAs_eq_none_iff]
    rw [hreports, hend, ← hname]
    rcases hcases with ⟨hrun, hperm⟩ | ⟨hrun, htypedef⟩
    · rcases eq_typedef_or_of_mem_all c hc with rfl | ⟨htypedef, hother⟩
      · rcases count_typedef (s := s) hperm hnodup tag with ⟨hnameless, hcount⟩ | ⟨hnot, hcount⟩
        · have htypedef : Category.typedef.name = "Typedef" := rfl
          simp [hrun, hnameless, hcount, htypedef]
        · simp [hnot, hcount, Nat.le_succ_of_le hcount]
      · have hle := count_flatMap_le (s := s) hc hnodup (mt hperm.mem_iff.mp htypedef) tag
        simp [hother, hle, Nat.le_succ_of_le hle]
    · have hle := count_flatMap_le (s := s) hc hnodup htypedef tag
      simp [hrun, hle, Nat.le_succ_of_le hle]

/-- A type definition without a name is reported twice. -/
theorem interpret_reports_twice :
    let tag : Tag := ⟨"@typedef", "\x7bObject\x7d"⟩
    let s : Scope := ⟨[tag], Symbol.ofFile (.str "a.js"), ⟨[], []⟩, .none⟩
    let result := interpret false s { id := 1, category := "Typedef" }
    result.2.isNone = true ∧ (result.1.diagnostics.map Diagnostic.tag).count tag = 2 ∧
      s.tags.count tag = 1 := by
  decide +kernel

end DocGraph.Interpretation
