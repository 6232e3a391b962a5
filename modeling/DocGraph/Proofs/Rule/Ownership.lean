import DocGraph.Category
import DocGraph.Proofs.Record.Fields

/-! Which rule fills in which field.

    Every field of a record is filled in by the rule of one name, or by none (`Field.owner?`). A rule
    is disciplined if it writes what it fills in and nothing else, and goes by nothing in the record
    but that and what the rules that it needs fill in. All rules of all categories are
    (`Category.disciplined_of_mem_all`), so it does not matter in which order they come as long as
    each comes behind those that it needs. -/

namespace DocGraph

/-- The rule that fills a field in, if one does. -/
def Field.owner? : Field → Option String
  | .kind => some "kind"
  | .name | .externalLink | .testId => some "name"
  | .memberof => some "memberof"
  | .longname => some "longname"
  | .static => some "static"
  | .qualifier => some "qualifier"
  | .access => some "access"
  | .exported => some "export"
  | .ignored => some "ignore"
  | .undocumented => some "undocument"
  | .filePath => some "file_path"
  | .description => some "description"
  | .params => some "params"
  | .properties => some "properties"
  | .returns => some "returns"
  | .type => some "type"
  | .typedef => some "typedef"
  | .examples => some "examples"
  | .see => some "see"
  | .since => some "since"
  | .version => some "version"
  | .deprecated => some "deprecated"
  | .experimental => some "experimental"
  | .isAbstract => some "abstract"
  | .isOverride => some "override"
  | .todo => some "todo"
  | .throws => some "throws"
  | .emits => some "emits"
  | .listens => some "listens"
  | .parents | .extra => some "extends"
  | .interfaces => some "implements"
  | .isInterface => some "interface"
  | .testTargets => some "test_targets"
  | .importPath => some "import_path"
  | .importStyle => some "import_style"
  | .isAsync | .generator => some "callable_flags"
  | .decorators => some "decorators"
  | .lineNumber => some "line_number"
  | .content => some "content"
  | .id | .category | .moduleId | .tagsKnown | .tagsUnknown | .relations => none

namespace Rule

/-! ### Changes to records -/

/-- Two records that agree on what the rules of some names fill in. -/
def AgreeOn (names : List String) (r r' : Record) : Prop :=
  ∀ name ∈ names, ∀ f : Field, f.owner? = some name → r.field f = r'.field f

namespace AgreeOn

variable {names names' : List String} {r r' r'' : Record}

theorem symm (h : AgreeOn names r r') : AgreeOn names r' r :=
  fun name hname f hf => (h name hname f hf).symm

theorem trans (h : AgreeOn names r r') (h' : AgreeOn names r' r'') : AgreeOn names r r'' :=
  fun name hname f hf => (h name hname f hf).trans (h' name hname f hf)

theorem mono (h : AgreeOn names r r') (hnames : ∀ name ∈ names', name ∈ names) :
    AgreeOn names' r r' :=
  fun name hname => h name (hnames name hname)

theorem append (h : AgreeOn names r r') (h' : AgreeOn names' r r') :
    AgreeOn (names ++ names') r r' :=
  List.forall_mem_append.mpr ⟨h, h'⟩

end AgreeOn

/-- A change that writes nothing but what the rule of a name fills in, and goes by nothing but that
    and what the rules that it needs fill in. -/
structure Confined (name : String) (needs : List String) (change : Record → Record) : Prop where
  frame : ∀ r (f : Field), f.owner? ≠ some name → (change r).field f = r.field f
  determined : ∀ r r', AgreeOn (name :: needs) r r' → AgreeOn [name] (change r) (change r')

namespace Confined

variable {name : String} {needs : List String} {change : Record → Record}

theorem unchanged : Confined name needs fun r => r where
  frame := fun _ _ _ => rfl
  determined := fun _ _ h n hn => h n (List.mem_cons.mpr (Or.inl (List.mem_singleton.mp hn)))

/-- Writing one field, by what may be gone by. -/
theorem write (f : Field) (hf : f.owner? = some name)
    (hchange : ∀ r, change r = r.write f ((change r).field f))
    (hvalue : ∀ r r', AgreeOn (name :: needs) r r' → (change r).field f = (change r').field f) :
    Confined name needs change := by
  have hother : ∀ r (g : Field), g ≠ f → (change r).field g = r.field g := by
    intro r g hg
    rw [hchange, Record.field_write_of_ne r hg]
  refine ⟨fun r g hg => hother r g ?_, fun r r' h n hn g hg => ?_⟩
  · rintro rfl
    exact hg hf
  · by_cases hgf : g = f
    · subst hgf
      exact hvalue r r' h
    · rw [hother r g hgf, hother r' g hgf]
      exact h n (List.mem_cons.mpr (Or.inl (List.mem_singleton.mp hn))) g hg

/-- Writing something fixed into one field. -/
theorem sets (f : Field) (hf : f.owner? = some name) (h : ∃ v, ∀ r, change r = r.write f v) :
    Confined name needs change := by
  obtain ⟨v, hv⟩ := h
  have hfield : ∀ r, (change r).field f = v := fun r => by rw [hv, Record.field_write_self]
  refine .write f hf (fun r => ?_) fun r r' _ => ?_
  · rw [hfield, hv]
  · rw [hfield, hfield]

/-- Writing what was found into one field, or else leaving the record alone. -/
theorem setsFound (f : Field) (hf : f.owner? = some name) {α : Type}
    {store : Option α → Record → Record} (hnone : ∀ r, store none r = r)
    (h : ∀ a, ∃ v, ∀ r, store (some a) r = r.write f v) :
    ∀ found, Confined name needs (store found)
  | none => by
    rw [funext hnone]
    exact .unchanged
  | some a => .sets f hf (h a)

theorem comp {change' : Record → Record} (h : Confined name needs change)
    (h' : Confined name needs change') : Confined name needs fun r => change' (change r) := by
  refine ⟨fun r f hf => ?_, fun r r' hagree => ?_⟩
  · rw [h'.frame _ f hf, h.frame r f hf]
  · refine h'.determined _ _ fun n hn f hf => ?_
    by_cases hown : f.owner? = some name
    · exact h.determined r r' hagree name (List.mem_singleton_self name) f hown
    · rw [h.frame r f hown, h.frame r' f hown]
      exact hagree n hn f hf

/-- Writing something fixed into two fields. -/
theorem setsBoth (f g : Field) (hf : f.owner? = some name) (hg : g.owner? = some name)
    (h : ∃ v w, ∀ r, change r = (r.write f v).write g w) : Confined name needs change := by
  obtain ⟨v, w, hvw⟩ := h
  have hcomp : Confined name needs fun r => (r.write f v).write g w :=
    comp (.sets f hf ⟨v, fun _ => rfl⟩) (.sets g hg ⟨w, fun _ => rfl⟩)
  rwa [← funext hvw] at hcomp

theorem foldl {α : Type} {change : Record → α → Record}
    (h : ∀ a, Confined name needs fun r => change r a) :
    ∀ items : List α, Confined name needs fun r => items.foldl change r
  | [] => .unchanged
  | a :: items => (h a).comp (foldl h items)

end Confined

/-! ### Conduct of rules -/

/-- The diagnostic for a problem with a tag of a draft. -/
def Draft.diagnostic (d : Draft) (s : Scope) (problem : Tag × String) : Diagnostic :=
  ⟨d.record.id, d.reportPath s, problem.1.name, problem.1.value, problem.2⟩

theorem Draft.reportAll_eq (s : Scope) : ∀ (problems : List (Tag × String)) (d : Draft),
    ∃ logs, d.reportAll s problems =
      ⟨d.record, d.diagnostics ++ problems.map (d.diagnostic s), logs⟩
  | [], d => ⟨d.logs, by simp [reportAll]⟩
  | p :: problems, d => by
    obtain ⟨logs, hlogs⟩ := reportAll_eq s problems (d.report s p.1 p.2)
    refine ⟨logs, ?_⟩
    rw [reportAll, List.foldl_cons, ← reportAll, hlogs, List.map_cons, report]
    simp only [List.append_assoc, List.cons_append, List.nil_append]
    rfl

/-- What a rule does in a scope, whatever it logs: it reports problems, changes the record, and may
    fail by what it finds there. -/
structure Conduct where
  problems : List (Tag × String)
  change : Record → Record
  failure : Record → Option Failure

/-- What a rule with some conduct makes of a draft. -/
def Conduct.Describes (k : Conduct) (rule : DocRule) (s : Scope) : Prop :=
  ∀ d : Draft, ∃ logs, rule.effect s d =
    (⟨k.change d.record, d.diagnostics ++ k.problems.map (d.diagnostic s), logs⟩,
      k.failure d.record)

/-- A rule that, in a scope, stays within what its name and its needs allow. -/
def DocRule.DisciplinedIn (s : Scope) (name : String) (rule : DocRule) : Prop :=
  ∃ k : Conduct, k.Describes rule s ∧ Confined name rule.needs k.change ∧
    ∀ r r', AgreeOn (name :: rule.needs) r r' → k.failure r = k.failure r'

/-- A rule that stays within what its name and its needs allow. -/
def DocRule.Disciplined (name : String) (rule : DocRule) : Prop :=
  ∀ s, rule.DisciplinedIn s name

namespace DocRule

variable {s : Scope} {name : String} {rule : DocRule}

theorem DisciplinedIn.of_changes {change : Record → Record} (h : Confined name rule.needs change)
    (heffect : ∀ d, ∃ logs, rule.effect s d = (⟨change d.record, d.diagnostics, logs⟩, none)) :
    rule.DisciplinedIn s name := by
  refine ⟨⟨[], change, fun _ => none⟩, fun d => ?_, h, fun _ _ _ => rfl⟩
  obtain ⟨logs, hlogs⟩ := heffect d
  exact ⟨logs, by simp [hlogs]⟩

theorem DisciplinedIn.of_fails (e : Failure) (heffect : ∀ d, rule.effect s d = (d, some e)) :
    rule.DisciplinedIn s name := by
  refine ⟨⟨[], fun r => r, fun _ => some e⟩, fun d => ⟨d.logs, ?_⟩, .unchanged, fun _ _ _ => rfl⟩
  simp [heffect]

namespace Disciplined

/-- A rule that changes the record only. -/
theorem assign {needs : List String} {change : Scope → Record → Record}
    (h : ∀ s, Confined name needs (change s)) : (DocRule.assign needs change).Disciplined name :=
  fun s => .of_changes (h s) fun d => ⟨d.logs, rfl⟩

/-- A rule that sets one field to what the scope says. -/
theorem sets (f : Field) (hf : f.owner? = some name) {needs : List String}
    {change : Scope → Record → Record} (h : ∀ s, ∃ v, ∀ r, change s r = r.write f v) :
    (DocRule.assign needs change).Disciplined name :=
  .assign fun s => .sets f hf (h s)

/-- A rule that sets one field when a tag is there. -/
theorem whenTagged (f : Field) (hf : f.owner? = some name) {names : List String}
    {change : Tag → Record → Record} (h : ∀ tag, ∃ v, ∀ r, change tag r = r.write f v) :
    (Rule.whenTagged names change).Disciplined name := by
  refine .assign fun s => ?_
  cases s.find? names with
  | none => exact .unchanged
  | some tag => exact .sets f hf (h tag)

/-- A rule that reads tags and stores what it found. -/
theorem collecting {α : Type} {names : List String} {read : CharacterNames → Tag → Reading α}
    {store : Option (List α) → Record → Record} (h : ∀ found, Confined name [] (store found)) :
    (DocRule.collecting names read store).Disciplined name := by
  intro s
  let c := collect (read s.charNames) (s.findAll names)
  by_cases hover : c.overflow = true
  · refine ⟨⟨c.refused, fun r => r, fun _ => some .overflow⟩, fun d => ?_, .unchanged,
      fun _ _ _ => rfl⟩
    obtain ⟨logs, hlogs⟩ := d.reportAll_eq s c.refused
    exact ⟨logs, by simp only [DocRule.collecting, hover, if_true, c, hlogs]⟩
  · let found := if (s.findAll names).isEmpty then none else some c.found
    refine ⟨⟨c.refused, store found, fun _ => none⟩, fun d => ?_, h found, fun _ _ _ => rfl⟩
    obtain ⟨logs, hlogs⟩ := d.reportAll_eq s c.refused
    exact ⟨logs, by simp only [DocRule.collecting, hover, Bool.false_eq_true, if_false, c, hlogs,
      found]⟩

/-- A rule that reads the last tag of some names and stores what it found. -/
theorem reading {names : List String} {wanted : Descriptor.Wanted}
    {store : Option Descriptor → Record → Record} (h : ∀ found, Confined name [] (store found)) :
    (DocRule.reading names wanted store).Disciplined name := by
  intro s
  cases hfind : s.find? names with
  | none =>
    refine .of_changes .unchanged fun d => ⟨d.logs, ?_⟩
    simp only [DocRule.reading, hfind]
  | some tag =>
    by_cases hempty : tag.value.isEmpty = true
    · refine .of_changes .unchanged fun d => ⟨d.logs, ?_⟩
      simp only [DocRule.reading, hfind, hempty, if_true]
    cases hread : readDescriptor wanted s.charNames tag with
    | found a =>
      refine .of_changes (h (some a)) fun d => ⟨d.logs, ?_⟩
      simp only [DocRule.reading, hfind, hempty, Bool.false_eq_true, if_false, Draft.parse, hread]
    | refused message =>
      refine ⟨⟨[(tag, message)], store none, fun _ => none⟩,
        fun d => ⟨(d.report s tag message).logs, ?_⟩, h none, fun _ _ _ => rfl⟩
      simp only [DocRule.reading, hfind, hempty, Bool.false_eq_true, if_false, Draft.parse, hread]
      rfl
    | overflow =>
      refine .of_fails .overflow fun d => ?_
      simp only [DocRule.reading, hfind, hempty, Bool.false_eq_true, if_false, Draft.parse, hread]

end Disciplined

/-! ### What follows from discipline -/

/-- The problems that a rule reports in a scope. -/
def problems (rule : DocRule) (s : Scope) : List (Tag × String) :=
  (rule.effect s ⟨{ id := 0, category := "" }, [], []⟩).1.diagnostics.map fun d =>
    (⟨d.tagName, d.tagValue⟩, d.message)

namespace Disciplined

/-- A rule leaves alone what others fill in. -/
theorem frame (h : rule.Disciplined name) (s : Scope) (d : Draft) {f : Field}
    (hf : f.owner? ≠ some name) : (rule.effect s d).1.record.field f = d.record.field f := by
  obtain ⟨k, hk, hconfined, _⟩ := h s
  obtain ⟨logs, hlogs⟩ := hk d
  rw [hlogs]
  exact hconfined.frame d.record f hf

/-- A rule does the same where it finds the same in its own fields and in those that it needs. -/
theorem determined (h : rule.Disciplined name) (s : Scope) {d d' : Draft}
    (hagree : AgreeOn (name :: rule.needs) d.record d'.record) :
    (rule.effect s d).2 = (rule.effect s d').2 ∧
      AgreeOn [name] (rule.effect s d).1.record (rule.effect s d').1.record := by
  obtain ⟨k, hk, hconfined, hfailure⟩ := h s
  obtain ⟨logs, hlogs⟩ := hk d
  obtain ⟨logs', hlogs'⟩ := hk d'
  rw [hlogs, hlogs']
  exact ⟨hfailure _ _ hagree, hconfined.determined _ _ hagree⟩

/-- A rule reports the same problems whatever the draft, for the draft's own record and file. -/
theorem diagnostics_eq (h : rule.Disciplined name) (s : Scope) (d : Draft) :
    (rule.effect s d).1.diagnostics = d.diagnostics ++ (rule.problems s).map (d.diagnostic s) := by
  obtain ⟨k, hk, _⟩ := h s
  obtain ⟨logs, hlogs⟩ := hk d
  obtain ⟨logs', hlogs'⟩ := hk ⟨{ id := 0, category := "" }, [], []⟩
  have hproblems : rule.problems s = k.problems := by
    rw [problems, hlogs', List.nil_append, List.map_map]
    exact List.map_id k.problems
  rw [hlogs, hproblems]

end Disciplined

end DocRule

/-! ### The shared rules -/

theorem disciplined_longnameRule : longnameRule.Disciplined "longname" := by
  intro s
  let longname? (r : Record) := longnameOf? r.memberof r.static r.name
  have hagree : ∀ r r', AgreeOn ("longname" :: longnameRule.needs) r r' →
      longname? r = longname? r' := by
    intro r r' h
    have hmemberof : r.memberof = r'.memberof := h "memberof" (by decide) .memberof rfl
    have hname : r.name = r'.name := h "name" (by decide) .name rfl
    have hstatic : r.static = r'.static := h "static" (by decide) .static rfl
    simp only [longname?, hmemberof, hname, hstatic]
  refine ⟨⟨[], fun r => { r with longname := (longname? r).getD r.longname },
    fun r => if (longname? r).isSome then none else some .wrongType⟩, fun d => ⟨d.logs, ?_⟩,
    .write .longname rfl (fun _ => rfl) fun r r' h => ?_, fun r r' h => ?_⟩
  · cases hlong : longnameOf? d.record.memberof d.record.static d.record.name <;>
      simp [longnameRule, longname?, hlong]
  · have hown : r.longname = r'.longname := h "longname" (by decide) .longname rfl
    show (longname? r).getD r.longname = (longname? r').getD r'.longname
    rw [hagree r r' h, hown]
  · simp only [hagree r r' h]

theorem disciplined_decoratorsRule : decoratorsRule.Disciplined "decorators" := by
  intro s
  cases hitems : s.symbol.decorators.items? with
  | none => exact .of_fails .wrongType fun d => by simp only [decoratorsRule, hitems]
  | some items =>
    refine .of_changes (.sets .decorators rfl ⟨nonEmpty items, fun _ => rfl⟩) fun d => ⟨d.logs, ?_⟩
    simp only [decoratorsRule, hitems]
    rfl

theorem disciplined_sharedRules : ∀ e ∈ sharedRules, e.2.Disciplined e.1 := by
  simp only [sharedRules, List.forall_mem_cons]
  exact ⟨.sets .qualifier rfl fun _ => ⟨_, fun _ => rfl⟩,
    .sets .name rfl fun _ => ⟨_, fun _ => rfl⟩,
    .sets .filePath rfl fun _ => ⟨_, fun _ => rfl⟩,
    .sets .static rfl fun _ => ⟨_, fun _ => rfl⟩,
    disciplined_longnameRule,
    .whenTagged .isAbstract rfl fun _ => ⟨_, fun _ => rfl⟩,
    .sets .access rfl fun _ => ⟨_, fun _ => rfl⟩,
    .whenTagged .deprecated rfl fun _ => ⟨_, fun _ => rfl⟩,
    .sets .description rfl fun _ => ⟨_, fun _ => rfl⟩,
    .collecting fun _ => .sets .emits rfl ⟨_, fun _ => rfl⟩,
    .sets .examples rfl fun _ => ⟨_, fun _ => rfl⟩,
    .whenTagged .experimental rfl fun _ => ⟨_, fun _ => rfl⟩,
    .whenTagged .ignored rfl fun _ => ⟨_, fun _ => rfl⟩,
    .sets .lineNumber rfl fun _ => ⟨_, fun _ => rfl⟩,
    .collecting fun _ => .sets .listens rfl ⟨_, fun _ => rfl⟩,
    .whenTagged .isOverride rfl fun _ => ⟨_, fun _ => rfl⟩,
    .collecting (.setsFound .params rfl (fun _ => rfl) fun _ => ⟨_, fun _ => rfl⟩),
    .collecting (.setsFound .properties rfl (fun _ => rfl) fun _ => ⟨_, fun _ => rfl⟩),
    .reading fun _ => .sets .returns rfl ⟨_, fun _ => rfl⟩,
    .sets .see rfl fun _ => ⟨_, fun _ => rfl⟩,
    .whenTagged .since rfl fun _ => ⟨_, fun _ => rfl⟩,
    .sets .todo rfl fun _ => ⟨_, fun _ => rfl⟩,
    .collecting fun _ => .sets .throws rfl ⟨_, fun _ => rfl⟩,
    .reading fun _ => .sets .type rfl ⟨_, fun _ => rfl⟩,
    .sets .undocumented rfl fun _ => ⟨_, fun _ => rfl⟩,
    .whenTagged .version rfl fun _ => ⟨_, fun _ => rfl⟩,
    disciplined_decoratorsRule,
    List.forall_mem_nil _⟩

/-! ### The rules of single categories -/

/-- Setting what the class extends beside its field empties the field. -/
theorem confined_setBeside (v : Value) :
    Confined "extends" [] fun r => r.setBeside "extends" v := by
  let emptied (r : Record) : Record := { r with parents := none }
  let beside (r : Record) : Record := { r with extra := r.extra.put "extends" v }
  have hemptied : Confined "extends" [] emptied := .sets .parents rfl ⟨_, fun _ => rfl⟩
  have hbeside : Confined "extends" [] beside := by
    refine .write .extra rfl (fun _ => rfl) fun r r' h => ?_
    have hextra : r.extra = r'.extra := h "extends" (by decide) .extra rfl
    show r.extra.put "extends" v = r'.extra.put "extends" v
    rw [hextra]
  exact hemptied.comp hbeside

theorem confined_withParent (parent : Value) : Confined "extends" [] (withParent parent) := by
  cases parent with
  | str name => exact .sets .parents rfl ⟨_, fun _ => rfl⟩
  | _ => exact confined_setBeside _

/-- A superclass that is looked up in the source fails, is not there, or is one name, whatever the
    draft. -/
theorem selectParent_cases (s : Scope) (location : List Value) :
    (∃ e, ∀ d, selectParent s d location = (d, some e)) ∨
      (∀ d, ∃ logs, selectParent s d location = (⟨d.record, d.diagnostics, logs⟩, none)) ∨
      ∃ parent, ∀ d, selectParent s d location =
        ({ d with record := { d.record with parents := some [parent] } }, none) := by
  by_cases hnull : (sourceOf s.symbol).isNull = true
  · refine Or.inr (Or.inl fun d => ⟨(selectParent s d location).1.logs, ?_⟩)
    simp only [selectParent, hnull, if_true]
    rfl
  simp only [selectParent, hnull, Bool.false_eq_true, if_false]
  split
  · next line start stop =>
    cases hsource : sourceOf s.symbol with
    | str path =>
      simp only [readParent]
      cases Selection.read s.files (Files.Path.ofText path).text line start stop with
      | error e => exact Or.inl ⟨.selection e, fun _ => rfl⟩
      | ok text =>
        by_cases hempty : (Text.trimmed text).isEmpty = true
        · exact Or.inr (Or.inl fun d => ⟨d.logs, by simp only [hempty, if_true]⟩)
        · exact Or.inr (Or.inr ⟨Text.trimmed text, fun d => by
            simp only [hempty, Bool.false_eq_true, if_false]⟩)
    | _ => exact Or.inl ⟨.wrongType, fun _ => rfl⟩
  · exact Or.inl ⟨.badLocation location.length, fun _ => rfl⟩

theorem disciplined_extendsRule : extendsRule.Disciplined "extends" := by
  intro s
  have hnames : ∀ names, Confined "extends" [] fun r : Record => { r with parents := some names } :=
    fun names => .sets .parents rfl ⟨some names, fun _ => rfl⟩
  cases htagged : nonEmpty (references (s.findAll ["@extends", "@extend"])) with
  | some names =>
    exact .of_changes (hnames names) fun d => ⟨d.logs, by simp only [extendsRule, htagged]⟩
  | none =>
  by_cases hknown : s.symbol.superclass.truthy = true
  · exact .of_changes (confined_withParent s.symbol.superclass) fun d =>
      ⟨d.logs, by simp only [extendsRule, htagged, hknown, if_true]⟩
  match hlocation : s.symbol.superclassLocation with
  | none | some [] =>
    exact .of_changes .unchanged fun d =>
      ⟨d.logs, by simp only [extendsRule, htagged, hknown, Bool.false_eq_true, if_false, hlocation]⟩
  | some (item :: items) =>
  have heffect : ∀ d, extendsRule.effect s d = selectParent s d (item :: items) := fun d => by
    simp only [extendsRule, htagged, hknown, Bool.false_eq_true, if_false, hlocation]
  rcases selectParent_cases s (item :: items) with ⟨e, hfails⟩ | hnothing | ⟨parent, hparent⟩
  · exact .of_fails e fun d => (heffect d).trans (hfails d)
  · refine .of_changes .unchanged fun d => ?_
    obtain ⟨logs, hlogs⟩ := hnothing d
    exact ⟨logs, (heffect d).trans hlogs⟩
  · exact .of_changes (hnames [parent]) fun d => ⟨d.logs, (heffect d).trans (hparent d)⟩

theorem disciplined_typedefNameRule : typedefNameRule.Disciplined "name" := by
  intro s
  let c := collect (readClauses typeAndName) (s.findAll ["@typedef"])
  by_cases hempty : (s.findAll ["@typedef"]).isEmpty = true
  · refine .of_changes .unchanged fun d => ⟨(typedefNameRule.effect s d).1.logs, ?_⟩
    simp only [typedefNameRule, hempty, if_true]
    rfl
  · let name : Value := .ofText? (c.found.getLast?.bind fun x => x.nameText)
    refine ⟨⟨c.refused, fun r => { r with name := name }, fun _ => none⟩, fun d => ?_,
      .sets .name rfl ⟨name, fun _ => rfl⟩, fun _ _ _ => rfl⟩
    obtain ⟨logs, hlogs⟩ := d.reportAll_eq s c.refused
    exact ⟨logs, by
      simp only [typedefNameRule, hempty, Bool.false_eq_true, if_false, c, hlogs, name]⟩

theorem confined_applyExternal (tag : Tag) : Confined "name" [] fun r => applyExternal r tag := by
  unfold applyExternal
  split
  · exact .unchanged
  · exact .setsBoth .name .externalLink rfl rfl ⟨_, _, fun _ => rfl⟩
  · exact .setsBoth .name .externalLink rfl rfl ⟨_, _, fun _ => rfl⟩

theorem disciplined_externalNameRule : externalNameRule.Disciplined "name" := by
  intro s
  by_cases hempty : (s.findAll ["@external"]).isEmpty = true
  · refine .of_changes .unchanged fun d => ⟨(externalNameRule.effect s d).1.logs, ?_⟩
    simp only [externalNameRule, hempty, if_true]
    rfl
  · refine .of_changes (.foldl confined_applyExternal (s.findAll ["@external"])) fun d =>
      ⟨d.logs, ?_⟩
    simp only [externalNameRule, hempty, Bool.false_eq_true, if_false]

/-- A rule that takes over one field from another, which it needs. -/
theorem DocRule.Disciplined.takes (f g : Field) {name need : String} (hf : f.owner? = some name)
    (hg : g.owner? = some need) {change : Scope → Record → Record}
    (hchange : ∀ s r, change s r = r.write f ((change s r).field f))
    (hvalue : ∀ s r r', r.field g = r'.field g → (change s r).field f = (change s r').field f) :
    (DocRule.assign [need] change).Disciplined name :=
  .assign fun s => .write f hf (hchange s) fun r r' h => hvalue s r r' (h need (by simp) g hg)

theorem disciplined_moduleRules : ∀ e ∈ Category.moduleRules, e.2.Disciplined e.1 := by
  simp only [Category.moduleRules, List.forall_mem_cons]
  refine ⟨.takes .memberof .filePath rfl rfl (fun _ _ => rfl) fun _ _ _ h => h,
    .sets .exported rfl fun _ => ⟨_, fun _ => rfl⟩,
    .sets .importPath rfl fun _ => ⟨_, fun _ => rfl⟩,
    .takes .importStyle .name rfl rfl (fun _ _ => rfl) fun s r r' h => ?_,
    List.forall_mem_nil _⟩
  have hname : r.name = r'.name := h
  show (if r.name.truthy then _ else _) = if r'.name.truthy then _ else _
  rw [hname]

theorem disciplined_callableRules : ∀ e ∈ Category.callableRules, e.2.Disciplined e.1 := by
  simp only [Category.callableRules, List.forall_mem_cons]
  exact ⟨.assign fun _ => .setsBoth .isAsync .generator rfl rfl ⟨_, _, fun _ => rfl⟩,
    List.forall_mem_nil _⟩

theorem disciplined_fileRules : ∀ e ∈ Category.fileRules, e.2.Disciplined e.1 := by
  simp only [Category.fileRules, List.forall_mem_cons]
  exact ⟨.sets .name rfl fun _ => ⟨_, fun _ => rfl⟩,
    .sets .memberof rfl fun _ => ⟨_, fun _ => rfl⟩,
    .takes .longname .name rfl rfl (fun _ _ => rfl) fun _ _ _ h => h,
    .sets .content rfl fun _ => ⟨_, fun _ => rfl⟩,
    .sets .undocumented rfl fun _ => ⟨_, fun _ => rfl⟩,
    List.forall_mem_nil _⟩

theorem disciplined_classRules : ∀ e ∈ Category.classRules, e.2.Disciplined e.1 := by
  simp only [Category.classRules, List.forall_mem_cons]
  exact ⟨disciplined_extendsRule,
    .sets .interfaces rfl fun _ => ⟨_, fun _ => rfl⟩,
    .sets .isInterface rfl fun _ => ⟨_, fun _ => rfl⟩,
    List.forall_mem_nil _⟩

theorem disciplined_testMemberofRule : testMemberofRule.Disciplined "memberof" := by
  refine .takes .memberof .filePath rfl rfl (fun _ _ => rfl) fun s r r' h => ?_
  have hpath : r.filePath = r'.filePath := h
  show (if s.symbol.owner.truthy then _ else r.filePath) = if s.symbol.owner.truthy then _ else _
  rw [hpath]

end Rule

/-! ### Categories -/

namespace Category

open Rule

theorem disciplined_compose {kind : String} {special : Named DocRule}
    (h : ∀ e ∈ special, e.2.Disciplined e.1) : ∀ e ∈ compose kind special, e.2.Disciplined e.1 := by
  refine Named.forall_mem_putAll (List.forall_mem_cons.mpr ⟨?_, disciplined_sharedRules⟩) h
  exact .sets .kind rfl fun _ => ⟨_, fun _ => rfl⟩

/-- All rules of all categories keep to their fields. -/
theorem disciplined_of_mem_all : ∀ c ∈ all, ∀ e ∈ c.rules, e.2.Disciplined e.1 := by
  have hmember : memberofOwnerRule.Disciplined "memberof" :=
    .sets .memberof rfl fun _ => ⟨_, fun _ => rfl⟩
  have hfile : memberofFileRule.Disciplined "memberof" :=
    (List.forall_mem_cons.mp disciplined_moduleRules).1
  simp only [all, List.forall_mem_cons]
  refine ⟨disciplined_compose disciplined_fileRules, disciplined_compose disciplined_fileRules,
    disciplined_compose (List.forall_mem_append.mpr ⟨disciplined_fileRules, ?memory⟩),
    disciplined_compose (List.forall_mem_append.mpr
      ⟨disciplined_moduleRules, disciplined_classRules⟩),
    disciplined_compose (List.forall_mem_append.mpr
      ⟨disciplined_moduleRules, disciplined_callableRules⟩),
    disciplined_compose disciplined_moduleRules, disciplined_compose disciplined_moduleRules,
    disciplined_compose ?member, disciplined_compose ?member,
    disciplined_compose (List.forall_mem_append.mpr ⟨?method, disciplined_callableRules⟩),
    disciplined_compose ?typedef, disciplined_compose ?external, disciplined_compose ?test,
    List.forall_mem_nil _⟩
  all_goals simp only [List.forall_mem_cons]
  case memory => exact ⟨.sets .name rfl fun _ => ⟨_, fun _ => rfl⟩, List.forall_mem_nil _⟩
  case member => exact ⟨hmember, List.forall_mem_nil _⟩
  case method =>
    exact ⟨hmember, .sets .qualifier rfl fun _ => ⟨_, fun _ => rfl⟩, List.forall_mem_nil _⟩
  case typedef =>
    exact ⟨hfile, disciplined_typedefNameRule,
      .reading (.setsFound .typedef rfl (fun _ => rfl) fun _ => ⟨_, fun _ => rfl⟩),
      List.forall_mem_nil _⟩
  case external =>
    exact ⟨hfile, disciplined_externalNameRule,
      .takes .longname .name rfl rfl (fun _ _ => rfl) fun _ _ _ h => h, List.forall_mem_nil _⟩
  case test =>
    exact ⟨disciplined_testMemberofRule,
      .assign fun _ => .setsBoth .name .testId rfl rfl ⟨_, _, fun _ => rfl⟩,
      .sets .testTargets rfl fun _ => ⟨_, fun _ => rfl⟩, List.forall_mem_nil _⟩

end Category

end DocGraph
