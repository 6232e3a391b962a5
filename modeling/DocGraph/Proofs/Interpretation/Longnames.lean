import DocGraph.Proofs.Interpretation.Reordering

/-! Long names.

    The long name of a symbol is that of the place where it is declared, a separator and its own
    name. Its rule comes up before any rule that can fail, so the long name is there however an
    interpretation ends (`longname_runOf`). The separator goes by whether there is a `~` in what the
    place is called. In the long name of what a file declares there is one, so the members of that
    get the right separator; what a file declares gets it unless the path has a `~` of its own
    (`interpret_longname`). -/

namespace DocGraph

open Rule

/-! ### Parts of a long name -/

namespace Rule

section Fits

variable {s : Scope} {name : String} {rule : DocRule} {blank full : Record}

/-- A rule that fills in one field makes it out of the rest of the full record. -/
theorem Fits.field_eq (h : Fits s blank full name rule) {f : Field}
    (hown : ∀ g : Field, g.owner? = some name ↔ g = f) (hneeds : name ∉ rule.needs) :
    let d : Draft := ⟨full.write f (blank.field f), [], []⟩
    (rule.effect s d).2 = none ∧ (rule.effect s d).1.record.field f = full.field f := by
  intro d
  have hblank : AgreeOn [name] d.record blank := by
    intro n hn g hg
    obtain rfl := List.mem_singleton.mp hn
    obtain rfl := (hown g).mp hg
    exact Record.field_write_self ..
  have hfull : AgreeOn rule.needs d.record full := by
    intro n hn g hg
    refine Record.field_write_of_ne full ?_ _
    rintro rfl
    obtain rfl := Option.some.inj (hg.symm.trans ((hown g).mpr rfl))
    exact hneeds hn
  obtain ⟨hok, hpart⟩ := h d hblank hfull
  exact ⟨hok, hpart name (List.mem_singleton_self _) f ((hown f).mpr rfl)⟩

theorem Fits.memberof_eq_filePath (h : Fits s blank full "memberof" memberofFileRule) :
    full.memberof = full.filePath := by
  have hown : ∀ g : Field, g.owner? = some "memberof" ↔ g = .memberof := by
    intro g
    cases g <;> simp [Field.owner?]
  have hfield := (h.field_eq hown (by decide)).2
  have hpath : (full.write .memberof (blank.field .memberof)).filePath = full.filePath :=
    Record.field_write_of_ne full (g := .filePath) (by decide) _
  exact hfield.symm.trans hpath

/-- The long name is put together from what the record has. -/
theorem Fits.longname_eq (h : Fits s blank full "longname" longnameRule) :
    longnameOf? full.memberof full.static full.name = some full.longname := by
  have hown : ∀ g : Field, g.owner? = some "longname" ↔ g = .longname := by
    intro g
    cases g <;> simp [Field.owner?]
  obtain ⟨hok, hfield⟩ := h.field_eq hown (by decide)
  have hsame : ∀ g : Field, g ≠ .longname →
      (full.write .longname (blank.field .longname)).field g = full.field g := fun g hg =>
    Record.field_write_of_ne full hg _
  let d : Draft := ⟨full.write .longname (blank.field .longname), [], []⟩
  have hparts : longnameOf? d.record.memberof d.record.static d.record.name =
      longnameOf? full.memberof full.static full.name :=
    congrFun₂ (congrArg longnameOf? (hsame .memberof (by decide))) _ _ |>.trans <|
      congrArg₂ (longnameOf? full.memberof) (hsame .static (by decide)) (hsame .name (by decide))
  cases hlong : longnameOf? full.memberof full.static full.name with
  | none =>
    have hfails : (longnameRule.effect s d).2 = some .wrongType := by
      simp only [longnameRule, hparts.trans hlong]
    exact absurd (hfails.symm.trans hok) (Option.some_ne_none _)
  | some longname =>
    have hsets : (longnameRule.effect s d).1.record.longname = longname := by
      simp only [longnameRule, hparts.trans hlong]
    exact congrArg some (hsets.symm.trans hfield)

end Fits

/-- An owner with a text for a name gives a long name. -/
theorem longnameOf?_text (text : String) (static : Bool) (name : Value) :
    ∃ longname, longnameOf? (.str text) static name = some longname := by
  rw [longnameOf?]
  split
  · exact ⟨_, rfl⟩
  · split
    · exact ⟨_, rfl⟩
    · exact ⟨_, rfl⟩

end Rule

namespace Interpretation

/-! ### Places -/

/-- Where a symbol is declared: at the top level of a file, or by an owner. -/
inductive Place where
  | file
  | owner

namespace Place

/-- The rule that sets what the symbol is a member of. -/
def rule : Place → DocRule
  | file => memberofFileRule
  | owner => memberofOwnerRule

/-- What the place is called. -/
def of : Place → Symbol → Value
  | file, s => s.filePath
  | owner, s => s.owner

/-- The categories of what is declared there. -/
def categories : Place → List Category
  | file => [.classes, .function, .variable, .assignment]
  | owner => [.member, .property, .method]

end Place

/-- The rules that are the first of every category. -/
def firstRules : List String := ["kind", "qualifier", "name", "file_path", "static", "longname"]

/-- The rules of a category that make up its long names. They are the first to come up. -/
structure Names (c : Category) (place : Place) : Prop where
  mem_all : c ∈ Category.all
  first : firstRules <+: c.rules.names
  kind : ∃ kind, ("kind", kindRule kind) ∈ c.rules
  qualifier : ("qualifier", qualifierRule) ∈ c.rules ∨ ("qualifier", methodQualifierRule) ∈ c.rules
  name : ("name", nameRule) ∈ c.rules
  static : ("static", staticRule) ∈ c.rules
  longname : ("longname", longnameRule) ∈ c.rules
  memberof : ("memberof", place.rule) ∈ c.rules

theorem Place.names (place : Place) : ∀ c ∈ place.categories, Names c place := by
  have hnames : ∀ {c : Category} {kind : String}, c ∈ Category.all →
      firstRules <+: c.rules.names →
      c.rules.get? "kind" = some (kindRule kind) →
      (c.rules.get? "qualifier" = some qualifierRule ∨
        c.rules.get? "qualifier" = some methodQualifierRule) →
      c.rules.get? "name" = some nameRule → c.rules.get? "static" = some staticRule →
      c.rules.get? "longname" = some longnameRule → c.rules.get? "memberof" = some place.rule →
      Names c place := by
    intro c kind hall hfirst hkind hqualifier hname hstatic hlongname hmemberof
    exact ⟨hall, hfirst, ⟨kind, Named.mem_of_get? hkind⟩,
      hqualifier.imp Named.mem_of_get? Named.mem_of_get?, Named.mem_of_get? hname,
      Named.mem_of_get? hstatic, Named.mem_of_get? hlongname, Named.mem_of_get? hmemberof⟩
  cases place with
  | file =>
    simp only [categories, List.forall_mem_cons]
    refine ⟨?_, ?_, ?_, ?_, List.forall_mem_nil _⟩ <;>
      exact hnames (by simp [Category.all]) (by decide +kernel) rfl (.inl rfl) rfl rfl rfl rfl
  | owner =>
    simp only [categories, List.forall_mem_cons]
    refine ⟨?_, ?_, ?_, List.forall_mem_nil _⟩
    · exact hnames (by simp [Category.all]) (by decide +kernel) rfl (.inl rfl) rfl rfl rfl rfl
    · exact hnames (by simp [Category.all]) (by decide +kernel) rfl (.inl rfl) rfl rfl rfl rfl
    · exact hnames (by simp [Category.all]) (by decide +kernel) rfl (.inr rfl) rfl rfl rfl rfl

/-! ### Runs -/

variable {c : Category} {place : Place} {strict : Bool} {s : Scope} {blank : Record}
  {text : String}

/-- What a symbol is a member of, when that has been filled in. -/
theorem Names.memberof_eq (h : Names c place) {full : Record} {applied : List String}
    (hfits : ∀ e ∈ c.rules, e.1 ∈ applied → Fits s blank full e.1 e.2)
    (hclosed : ∀ e ∈ c.rules, e.1 ∈ applied → ∀ need ∈ e.2.needs, need ∈ applied)
    (happlied : "memberof" ∈ applied) : full.memberof = place.of s.symbol := by
  have horderly := Category.orderly_of_mem_all c h.mem_all
  have hmemberof := hfits _ h.memberof happlied
  cases place with
  | file =>
    have hfile := hfits _ horderly.filePath
      (hclosed _ h.memberof happlied "file_path" (List.mem_singleton_self _))
    have hpath := hfile.agreeOn_of_blank rfl "file_path" (List.mem_singleton_self _) .filePath rfl
    exact (Fits.memberof_eq_filePath hmemberof).trans hpath.symm
  | owner =>
    exact (hmemberof.agreeOn_of_blank rfl "memberof" (List.mem_singleton_self _) .memberof
      rfl).symm

/-- Where the place has a text for a name, none of the rules that make up a long name fails. -/
theorem Names.effect_ok (h : Names c place) (htext : place.of s.symbol = .str text)
    {p : Progress Draft} (hp : Growing c s blank p) {name : String} {rule : DocRule}
    (hname : name ∈ firstRules ++ ["memberof"]) (hrule : (name, rule) ∈ c.rules)
    (hneeds : ∀ need ∈ rule.needs, need ∈ p.applied) : (rule.effect s p.state).2 = none := by
  have horderly := Category.orderly_of_mem_all c h.mem_all
  have hsame : ∀ {rule'}, (name, rule') ∈ c.rules → rule = rule' :=
    Named.eq_of_mem horderly.nodup hrule
  simp only [firstRules, List.cons_append, List.nil_append, List.mem_cons, List.not_mem_nil,
    or_false] at hname
  rcases hname with rfl | rfl | rfl | rfl | rfl | rfl | rfl
  · obtain ⟨kind, hkind⟩ := h.kind
    rw [hsame hkind]
    rfl
  · rcases h.qualifier with hqualifier | hqualifier
    · rw [hsame hqualifier]
      rfl
    · rw [hsame hqualifier]
      rfl
  · rw [hsame h.name]
    rfl
  · rw [hsame horderly.filePath]
    rfl
  · rw [hsame h.static]
    rfl
  · obtain rfl := hsame h.longname
    have hmemberof : p.state.record.memberof = .str text :=
      (h.memberof_eq hp.fits hp.closed (hneeds "memberof" (by decide))).trans htext
    obtain ⟨longname, hlongname⟩ :=
      longnameOf?_text text p.state.record.static p.state.record.name
    simp only [longnameRule, hmemberof, hlongname]
  · rw [hsame h.memberof]
    cases place <;> rfl

/-- The rules that make up a long name need one another only. -/
theorem needs_firstRules : ∀ c ∈ Category.all, ∀ e ∈ c.rules, e.1 ∈ firstRules ++ ["memberof"] →
    ∀ need ∈ e.2.needs, need ∈ firstRules ++ ["memberof"] := by
  decide +kernel

theorem Names.mem_names_of_first (h : Names c place) :
    ∀ name ∈ bootstrap ++ firstRules, name ∈ c.rules.names := by
  have hfirst : ∀ name ∈ bootstrap ++ firstRules, name ∈ firstRules := by decide
  exact fun name hname => h.first.subset (hfirst name hname)

/-- The demands that a run begins with are met, up to the one for the long name. -/
theorem Names.ensureAll_first (h : Names c place) (htext : place.of s.symbol = .str text)
    (strict : Bool) (blank : Record) :
    (ensureAll (evaluator c strict s) [] (bootstrap ++ firstRules)
      (.start ⟨blank, [], []⟩)).2 = none := by
  have horderly := Category.orderly_of_mem_all c h.mem_all
  let ev := evaluator c strict s
  have heval : Evaluates ev (bootstrap ++ firstRules) ⟨.start ⟨blank, [], []⟩, []⟩
      ⟨(ensureAll ev [] (bootstrap ++ firstRules) (.start ⟨blank, [], []⟩)).1, []⟩
      (ensureAll ev [] (bootstrap ++ firstRules) (.start ⟨blank, [], []⟩)).2 :=
    evaluates_of_ensureAll rfl
  -- what comes up is among the rules that make up a long name, and of these none fails
  have hkept := heval.keepsWithin (P := Growing c s blank)
    (S := fun name => name ∈ firstRules ++ ["memberof"])
    (fun hname hrule need hneed => by
      obtain ⟨rule, hmem, rfl⟩ := exists_of_get?_registry hrule
      exact needs_firstRules c h.mem_all _ hmem hname need hneed)
    (fun hp _ _ hrule => hp.skip (not_mem_names_of_get?_registry hrule))
    (fun {p _ _ state} hp _ hnew hrule hneeds heffect => by
      obtain ⟨rule, hmem, rfl⟩ := exists_of_get?_registry hrule
      obtain rfl : (rule.effect s p.state).1 = state := congrArg Prod.fst heffect
      exact hp.apply horderly hnew hmem hneeds (congrArg Prod.snd heffect))
    (by decide) .start
  rcases hkept with ⟨_, hfine⟩ | ⟨p, name, _, e, hp, hname, _, hrule, hneeds, heffect, _, _⟩
  · cases hhalt : (ensureAll ev [] (bootstrap ++ firstRules) (.start ⟨blank, [], []⟩)).2 with
    | none => rfl
    | some halt =>
      obtain ⟨e, rfl⟩ := failed_of_ensureAll horderly h.mem_names_of_first hhalt
      exact absurd hhalt (hfine e)
  · obtain ⟨rule, hmem, rfl⟩ := exists_of_get?_registry hrule
    have hok := h.effect_ok htext hp hname hmem hneeds
    exact absurd ((congrArg Prod.snd heffect).symm.trans hok) (Option.some_ne_none e)

/-- However a run ends, it has applied the rules that make up a long name. -/
theorem Names.mem_applied (h : Names c place) (htext : place.of s.symbol = .str text)
    {name : String} (hname : name ∈ firstRules ++ ["memberof"]) :
    name ∈ (runOf c strict s blank).1.applied := by
  let ev := evaluator c strict s
  obtain ⟨rest, hrest⟩ := h.first
  have hdemands : bootstrap ++ ev.rules.names = (bootstrap ++ firstRules) ++ rest := by
    rw [List.append_assoc, hrest]
    exact congrArg (bootstrap ++ ·) (names_registry c s)
  obtain ⟨m, hm⟩ : ∃ m, ensureAll ev [] (bootstrap ++ firstRules) (.start ⟨blank, [], []⟩) =
      (m, none) := ⟨_, Prod.ext rfl (h.ensureAll_first htext strict blank)⟩
  have hrun : runOf c strict s blank = ensureAll ev [] rest m := by
    rw [runOf, run, hdemands, ensureAll_append, hm]
  have hfirst : ∀ name ∈ firstRules, name ∈ (runOf c strict s blank).1.applied := by
    intro name hname
    have heval : Evaluates ev (bootstrap ++ firstRules) ⟨.start ⟨blank, [], []⟩, []⟩ ⟨m, []⟩ none :=
      evaluates_of_ensureAll hm
    have hrest : Evaluates ev rest ⟨m, []⟩ ⟨(ensureAll ev [] rest m).1, []⟩
        (ensureAll ev [] rest m).2 := evaluates_of_ensureAll rfl
    rw [hrun]
    exact hrest.steps_and_applied.1.prefix_applied.subset
      (heval.steps_and_applied.2 rfl name (List.mem_append_right _ hname))
  rcases List.mem_append.mp hname with hin | hmemberof
  · exact hfirst name hin
  · -- the rule for the long name needs it
    obtain rfl := List.mem_singleton.mp hmemberof
    obtain ⟨-, hclosed, -⟩ :=
      growing_runOf (Category.orderly_of_mem_all c h.mem_all) strict s blank
    exact hclosed _ h.longname (hfirst "longname" (by decide)) "memberof" List.mem_cons_self

/-- However a run ends, the long name is that of the place where the symbol is declared, a separator
    and its own name. -/
theorem Names.longname_runOf (h : Names c place) (htext : place.of s.symbol = .str text)
    (strict : Bool) (blank : Record) :
    let r := (runOf c strict s blank).1.state.record
    r.static = (s.symbol.static.isNull || s.symbol.static.truthy) ∧
      longnameOf? (.str text) r.static s.symbol.name = some r.longname := by
  intro r
  have horderly := Category.orderly_of_mem_all c h.mem_all
  obtain ⟨hfits, hclosed, -⟩ := growing_runOf horderly strict s blank
  have happlied : ∀ name ∈ firstRules ++ ["memberof"], name ∈ (runOf c strict s blank).1.applied :=
    fun _ => h.mem_applied htext
  have hmemberof : r.memberof = .str text :=
    (h.memberof_eq hfits hclosed (happlied "memberof" (by decide))).trans htext
  have hname : s.symbol.name = r.name :=
    (hfits _ h.name (happlied "name" (by decide))).agreeOn_of_blank rfl "name"
      (List.mem_singleton_self _) .name rfl
  have hstatic : (s.symbol.static.isNull || s.symbol.static.truthy) = r.static :=
    (hfits _ h.static (happlied "static" (by decide))).agreeOn_of_blank rfl "static"
      (List.mem_singleton_self _) .static rfl
  have hlongname : longnameOf? r.memberof r.static r.name = some r.longname :=
    (hfits _ h.longname (happlied "longname" (by decide))).longname_eq
  rw [hmemberof, ← hname] at hlongname
  exact ⟨hstatic.symm, hlongname⟩

/-! ### Interpretation -/

/-- The long name of what has a name, at a place that has one. -/
theorem longnameOf?_of_ne (hne : text ≠ "") (static : Bool) (name : String) :
    longnameOf? (.str text) static (.str name) =
      some (.str (text ++ separatorFor (decide ('~' ∈ text.toList)) static ++ name)) := by
  have htruthy : (Value.str text).truthy = true := by simpa [Value.truthy] using hne
  have hscoped : isScoped? (.str text) = some (decide ('~' ∈ text.toList)) := by
    rw [isScoped?, Text.hasChar, List.contains_eq_mem]
  rw [longnameOf?, if_neg (show ¬ (Value.str name).isNull = true from nofun), if_pos htruthy,
    hscoped]
  rfl

/-- However it ends, an interpretation fills in what the run of its category's rules does. -/
theorem naming_interpret (hc : c ∈ Category.all) (hblank : blank.category = c.name)
    (strict : Bool) (s : Scope) :
    (interpret strict s blank).1.record.static = (runOf c strict s blank).1.state.record.static ∧
      (interpret strict s blank).1.record.longname =
        (runOf c strict s blank).1.state.record.longname := by
  rw [interpret_of_mem_all hc hblank, interpretAs, ← runOf]
  split <;> simp [*]

/-- However an interpretation ends, a symbol with a name, at a place that has one, has its long
    name. -/
theorem longname_interpret (hc : c ∈ place.categories) (htext : place.of s.symbol = .str text)
    (hne : text ≠ "") {name : String} (hname : s.symbol.name = .str name)
    (strict : Bool) (blank : Record) (hblank : blank.category = c.name) :
    let r := (interpret strict s blank).1.record
    r.static = (s.symbol.static.isNull || s.symbol.static.truthy) ∧
      r.longname = .str (text ++ separatorFor (decide ('~' ∈ text.toList)) r.static ++ name) := by
  have hnames := place.names c hc
  obtain ⟨hstatic, hlongname⟩ := hnames.longname_runOf htext strict blank
  obtain ⟨hstatic', hlongname'⟩ := naming_interpret hnames.mem_all hblank strict s
  rw [hname, longnameOf?_of_ne hne, Option.some.injEq] at hlongname
  simp only [hstatic', hlongname']
  exact ⟨hstatic, hlongname.symm⟩

/-- The separator is that of a file exactly if there is none in the file's path. -/
theorem separated_iff (path name : String) (static : Bool) :
    let longname := path ++ separatorFor (decide ('~' ∈ path.toList)) static ++ name
    '~' ∈ longname.toList ∧ (longname = path ++ "~" ++ name ↔ '~' ∉ path.toList) ∧
      ('~' ∈ path.toList → longname = path ++ (if static then "." else "#") ++ name) := by
  intro longname
  by_cases htilde : '~' ∈ path.toList
  · have hlongname : longname = path ++ (if static then "." else "#") ++ name := by
      simp only [longname, htilde, decide_true]
      rfl
    have hother : (if static then "." else "#") ≠ "~" := by
      cases static <;> decide
    refine ⟨?_, iff_of_false (fun heq => hother ?_) (not_not.mpr htilde), fun _ => hlongname⟩
    · simp [longname, htilde]
    · rw [hlongname] at heq
      simpa using heq
  · have hlongname : longname = path ++ "~" ++ name := by
      simp only [longname, htilde, decide_false]
      rfl
    refine ⟨?_, iff_of_true hlongname htilde, fun h => absurd h htilde⟩
    simp [hlongname]

/-- Long names by scope. However an interpretation ends, what a file declares is called by the
    file's path, a `~` and its name, exactly if the path has no `~` in it; else the separator is
    that of a member. What is declared by an owner whose long name has a `~`, as that of all that a
    file declares has, is called by the owner's long name, a `.` if it is static or else a `#`, and
    its name. It is static unless the symbol says otherwise. -/
theorem interpret_longname (strict : Bool) (s : Scope) (id : Int) (moduleId : Option Int)
    (name : String) (hname : s.symbol.name = .str name) :
    let filled (c : Category) :=
      (interpret strict s { id := id, category := c.name, moduleId := moduleId }).1.record
    (∀ c ∈ Place.file.categories, ∀ path, s.symbol.filePath = .str path → path ≠ "" →
      ∃ longname, (filled c).longname = .str longname ∧ '~' ∈ longname.toList ∧
        (longname = path ++ "~" ++ name ↔ '~' ∉ path.toList) ∧
        ('~' ∈ path.toList →
          longname = path ++ (if (filled c).static then "." else "#") ++ name)) ∧
      (∀ c ∈ Place.owner.categories, ∀ owner, s.symbol.owner = .str owner → '~' ∈ owner.toList →
        (filled c).longname = .str (owner ++ (if (filled c).static then "." else "#") ++ name)) ∧
      ∀ place : Place, ∀ c ∈ place.categories, ∀ text, place.of s.symbol = .str text → text ≠ "" →
        (filled c).static = (s.symbol.static.isNull || s.symbol.static.truthy) := by
  intro filled
  refine ⟨fun c hc path hpath hne => ?_, fun c hc owner howner htilde => ?_,
    fun place c hc text htext hne => (longname_interpret hc htext hne hname strict _ rfl).1⟩
  · obtain ⟨-, hlongname⟩ := longname_interpret hc hpath hne hname strict
      { id := id, category := c.name, moduleId := moduleId } rfl
    refine ⟨_, hlongname, separated_iff path name _⟩
  · have hne : owner ≠ "" := by
      rintro rfl
      exact absurd htilde (by decide)
    obtain ⟨-, hlongname⟩ := longname_interpret hc howner hne hname strict
      { id := id, category := c.name, moduleId := moduleId } rfl
    rw [decide_eq_true htilde] at hlongname
    exact hlongname

/-- A member of the instances of the class `Box`, with a tag that cannot be read. -/
def boxMember : Scope where
  tags := [⟨"@param", "{number}"⟩]
  symbol := { Symbol.ofFile (.str "src/a.js") with
    name := .str "size", owner := .str "src/a.js~Box", static := .bool false }
  files := ⟨[], []⟩
  charNames := .none

theorem interpret_longname_box :
    let method := (interpret true boxMember { id := 1, category := "ClassMethod" }).1.record
    let function := (interpret true boxMember { id := 1, category := "Function" }).1.record
    method.longname = .str "src/a.js~Box#size" ∧ function.longname = .str "src/a.js~size" := by
  obtain ⟨hfile, howner, hstatic⟩ := interpret_longname true boxMember 1 none "size" rfl
  obtain ⟨longname, hlongname, -, hiff, -⟩ :=
    hfile .function (by simp [Place.categories]) "src/a.js" rfl (by decide)
  have hmethod := howner .method (by simp [Place.categories]) "src/a.js~Box" rfl (by decide)
  have hinstance := hstatic .owner .method (by simp [Place.categories]) "src/a.js~Box" rfl
    (by decide)
  rw [hinstance] at hmethod
  rw [hiff.mpr (by decide)] at hlongname
  exact ⟨hmethod, hlongname⟩

/-- What is declared in a file with a `~` in its path is called as a member of it would be. -/
theorem longname_of_tilde_path :
    let s : Scope := ⟨[], { Symbol.ofFile (.str "a~b.js") with name := .str "A" }, ⟨[], []⟩, .none⟩
    let result := interpret true s { id := 1, category := "Class" }
    result.2 = none ∧ result.1.record.longname.asText? = some "a~b.js.A" ∧
      result.1.record.longname ≠ .str ("a~b.js" ++ "~" ++ "A") := by
  intro s result
  have hend : result.2 = none := Option.isNone_iff_eq_none.mp (by decide +kernel)
  have htext : result.1.record.longname.asText? = some "a~b.js.A" := by decide +kernel
  refine ⟨hend, htext, fun hclaimed => ?_⟩
  rw [hclaimed] at htext
  exact absurd htext (by decide)

end Interpretation

end DocGraph
