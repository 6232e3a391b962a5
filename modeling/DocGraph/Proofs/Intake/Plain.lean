import DocGraph.Proofs.Intake.References
import DocGraph.Proofs.Json.Writable
import DocGraph.Proofs.Resolution.Lists

/-! What records take over from JSON entries.

    An entry of a symbol list is read from JSON, and so is all that its symbol says
    (`Symbol.Plain`). The rules copy this into the record, or write texts and truth values of their
    own, so that a record holds nothing but JSON values (`Record.Plain`), the defaults in its
    descriptors apart: these are read from the texts of tags. `Plain.createAll` says this of a whole
    list of entries, and of the problems that are reported on the way. -/

namespace DocGraph

/-! ### Symbols -/

/-- What records take over from a symbol can come out of a JSON document. -/
structure Symbol.Plain (s : Symbol) : Prop where
  filePath : s.filePath.isJson = true
  importPath : s.importPath.isJson = true
  importStyle : s.importStyle.isJson = true
  name : s.name.isJson = true
  owner : s.owner.isJson = true
  qualifier : s.qualifier.isJson = true
  superclass : s.superclass.isJson = true
  testName : s.testName.isJson = true
  testId : s.testId.isJson = true
  lineNumber : s.lineNumber.isJson = true
  decorators : s.decorators.isJson = true
  content : s.content.isJson = true

theorem Value.isJson_of_lookup {key : String} {v : Value} : ∀ {entries : List (Value × Value)},
    Value.entriesJson entries = true → Value.lookup entries key = some v → v.isJson = true
  | [], _, h => absurd h (by simp [lookup])
  | (k, w) :: rest, hjson, h => by
    rw [entriesJson, Bool.and_eq_true, Bool.and_eq_true] at hjson
    cases k with
    | str name =>
      rw [lookup] at h
      split at h
      · exact Option.some.inj h ▸ hjson.1.2
      · exact isJson_of_lookup hjson.2 h
    | _ => exact absurd hjson.1.1 Bool.false_ne_true

namespace Symbol

/-- All fields of a symbol that JSON describes, but for the tuple of a location, are JSON values. -/
theorem isJson_of_fields {data : List (Value × Value)} {fs : Named Value}
    (hdata : Value.entriesJson data = true) (h : fields data = .ok fs) :
    ∀ f ∈ fs, f.1 ≠ locationField → f.2.isJson = true := by
  have hgiven : ∀ f ∈ defaults.map (fun d => (d.1, (Value.lookup data d.1).getD d.2)),
      f.2.isJson = true := by
    refine List.forall_mem_map.mpr fun d hd => ?_
    cases hlookup : Value.lookup data d.1 with
    | some v => exact Value.isJson_of_lookup hdata hlookup
    | none =>
      have hdefaults : (defaults.all fun d => d.2.isJson) = true := by decide
      exact List.all_eq_true.mp hdefaults d hd
  simp only [fields] at h
  split at h
  · split at h
    · obtain rfl := Except.ok.inj h
      exact fun f hf _ => hgiven f hf
    · split at h
      · cases h
      · obtain rfl := Except.ok.inj h
        refine List.forall_mem_map.mpr fun f hf => ?_
        split
        · next hname => exact fun hne => absurd hname hne
        · exact fun _ => hgiven f hf
  · cases h

theorem plain_ofFields {fs : Named Value}
    (h : ∀ f ∈ fs, f.1 ≠ locationField → f.2.isJson = true) : (ofFields fs).Plain := by
  have hvalue : ∀ name, name ≠ locationField → (value fs name).isJson = true := by
    intro name hname
    rw [value]
    cases hget : fs.get? name with
    | none => rfl
    | some v => exact h (name, v) (Named.mem_of_get? hget) hname
  constructor <;> exact hvalue _ (by simp [locationField])

theorem plain_ofEntries {data : List (Value × Value)} {s : Symbol}
    (hdata : Value.entriesJson data = true) (h : ofEntries data = .ok s) : s.Plain := by
  rw [ofEntries] at h
  cases hfields : fields data with
  | error e =>
    rw [hfields] at h
    cases h
  | ok fs =>
    rw [hfields] at h
    obtain rfl := Except.ok.inj h
    exact plain_ofFields (isJson_of_fields hdata hfields)

end Symbol

/-! ### Rules -/

/-- What a record holds beside its descriptors can come out of a JSON document. -/
structure Record.Plain (r : Record) : Prop where
  name : r.name.isJson = true
  memberof : r.memberof.isJson = true
  longname : r.longname.isJson = true
  qualifier : r.qualifier.isJson = true
  exported : r.exported.isJson = true
  ignored : r.ignored.isJson = true
  undocumented : r.undocumented.isJson = true
  filePath : r.filePath.isJson = true
  deprecated : r.deprecated.isJson = true
  experimental : r.experimental.isJson = true
  testId : r.testId.isJson = true
  importPath : r.importPath.isJson = true
  importStyle : r.importStyle.isJson = true
  lineNumber : r.lineNumber.isJson = true
  content : r.content.isJson = true
  decorators : ∀ v ∈ r.decorators.getD [], v.isJson = true
  dependents : ∀ kind, ∀ v ∈ (Relations.listed kind r.relations).getD [], v.isJson = true
  beside : ∀ name v, r.extra.get? name = some v → v.isJson = true

namespace Rule

/-- A rule that takes over only what the symbol says. -/
def DocRule.KeepsPlain (rule : DocRule) : Prop :=
  ∀ (s : Scope) (d : Draft), s.symbol.Plain → d.record.Plain → (rule.effect s d).1.record.Plain

namespace DocRule.KeepsPlain

theorem assign {needs : List String} {change : Scope → Record → Record}
    (h : ∀ {s r}, s.symbol.Plain → r.Plain → (change s r).Plain) :
    (DocRule.assign needs change).KeepsPlain :=
  fun _ _ hs hd => h hs hd

theorem whenTagged {names : List String} {change : Tag → Record → Record}
    (h : ∀ tag {r}, r.Plain → (change tag r).Plain) : (Rule.whenTagged names change).KeepsPlain :=
  .assign fun {s r} _ hr => by
    cases s.find? names with
    | none => exact hr
    | some tag => exact h tag hr

/-- A rule that stores what it finds in tags. -/
theorem collecting {α : Type} {names : List String} {read : CharacterNames → Tag → Reading α}
    {store : Option (List α) → Record → Record} (h : ∀ found {r}, r.Plain → (store found r).Plain) :
    (DocRule.collecting names read store).KeepsPlain := by
  intro s d _ hd
  obtain ⟨logs, hlogs⟩ := d.reportAll_eq s (collect (read s.charNames) (s.findAll names)).refused
  simp only [DocRule.collecting, hlogs]
  split
  · exact hd
  · exact h _ hd

theorem reading {names : List String} {wanted : Descriptor.Wanted}
    {store : Option Descriptor → Record → Record}
    (h : ∀ found {r}, r.Plain → (store found r).Plain) :
    (DocRule.reading names wanted store).KeepsPlain := by
  intro s d _ hd
  simp only [DocRule.reading, Draft.parse]
  split
  · exact hd
  · split
    · exact hd
    · next tag _ _ =>
      cases readDescriptor wanted s.charNames tag with
      | found a => exact h (some a) hd
      | refused message => exact h none hd
      | overflow => exact hd

end DocRule.KeepsPlain

theorem keepsPlain_longnameRule : longnameRule.KeepsPlain := by
  intro s d _ hd
  simp only [longnameRule]
  split
  · next longname h =>
    have hjson : longname.isJson = true := by
      rw [longnameOf?] at h
      split at h
      · exact Option.some.inj h ▸ rfl
      · split at h
        · obtain ⟨_, _, rfl⟩ := Option.map_eq_some_iff.mp h
          rfl
        · exact Option.some.inj h ▸ hd.name
    exact { hd with longname := hjson }
  · exact hd

/-- What iterating over a JSON value yields is JSON. -/
theorem isJson_of_items? {v : Value} {items : List Value} (hv : v.isJson = true)
    (h : v.items? = some items) : ∀ i ∈ items, i.isJson = true := by
  cases v with
  | str s =>
    obtain rfl := Option.some.inj h
    exact List.forall_mem_map.mpr fun _ _ => rfl
  | list vs =>
    obtain rfl := Option.some.inj h
    exact Value.allJson_iff.mp hv
  | dict entries =>
    obtain rfl := Option.some.inj h
    exact List.forall_mem_map.mpr fun e he =>
      Value.isJson_of_asText? (Value.entriesJson_iff.mp hv e he).1
  | bytes _ => exact absurd hv Bool.false_ne_true
  | tuple _ => exact absurd hv Bool.false_ne_true
  | set _ => exact absurd hv Bool.false_ne_true
  | _ => cases h

theorem keepsPlain_decoratorsRule : decoratorsRule.KeepsPlain := by
  intro s d hs hd
  simp only [decoratorsRule]
  split
  · next items h =>
    have hitems := isJson_of_items? hs.decorators h
    refine { hd with decorators := ?_ }
    cases items with
    | nil => exact List.forall_mem_nil _
    | cons first rest => exact hitems
  · exact hd

theorem isJson_textOrTrue (tag : Tag) : (textOrTrue tag).isJson = true := by
  rw [textOrTrue]
  split <;> rfl

theorem keepsPlain_sharedRules : ∀ e ∈ sharedRules, e.2.KeepsPlain := by
  simp only [sharedRules, List.forall_mem_cons]
  exact ⟨.assign fun hs hr => { hr with qualifier := hs.qualifier },
    .assign fun hs hr => { hr with name := hs.name },
    .assign fun hs hr => { hr with filePath := hs.filePath },
    .assign fun _ hr => { hr with },
    keepsPlain_longnameRule,
    .whenTagged fun _ _ hr => { hr with },
    .assign fun _ hr => { hr with },
    .whenTagged fun tag _ hr => { hr with deprecated := isJson_textOrTrue tag },
    .assign fun _ hr => { hr with },
    .collecting fun _ _ hr => { hr with },
    .assign fun _ hr => { hr with },
    .whenTagged fun tag _ hr => { hr with experimental := isJson_textOrTrue tag },
    .whenTagged fun _ _ hr => { hr with ignored := rfl },
    .assign fun hs hr => { hr with lineNumber := hs.lineNumber },
    .collecting fun _ _ hr => { hr with },
    .whenTagged fun _ _ hr => { hr with },
    .collecting fun _ _ hr => { hr with },
    .collecting fun _ _ hr => { hr with },
    .reading fun _ _ hr => { hr with },
    .assign fun _ hr => { hr with },
    .whenTagged fun _ _ hr => { hr with },
    .assign fun _ hr => { hr with },
    .collecting fun _ _ hr => { hr with },
    .reading fun _ _ hr => { hr with },
    .assign fun _ hr => { hr with undocumented := rfl },
    .whenTagged fun _ _ hr => { hr with },
    keepsPlain_decoratorsRule,
    List.forall_mem_nil _⟩

theorem plain_withParent {parent : Value} (hparent : parent.isJson = true) {r : Record}
    (hr : r.Plain) : (withParent parent r).Plain := by
  have hset : r.setBeside "extends" (.list [parent]) =
      { r with parents := none, extra := r.extra.put "extends" (.list [parent]) } := rfl
  unfold withParent
  split
  · exact { hr with }
  · have hjson := Value.isJson_singleton hparent
    rw [hset]
    exact { hr with beside := Named.forall_get?_put (P := (Value.isJson · = true)) hjson hr.beside }

theorem keepsPlain_extendsRule : extendsRule.KeepsPlain := by
  intro s d hs hd
  simp only [extendsRule]
  split
  · exact { hd with }
  · split
    · exact plain_withParent hs.superclass hd
    · split
      · exact hd
      · exact hd
      · next location _ _ =>
        rcases selectParent_cases s location with ⟨e, hfails⟩ | hnothing | ⟨parent, hparent⟩
        · rwa [hfails d]
        · obtain ⟨logs, hlogs⟩ := hnothing d
          rwa [hlogs]
        · rw [hparent d]
          exact { hd with }

theorem keepsPlain_typedefNameRule : typedefNameRule.KeepsPlain := by
  intro s d _ hd
  obtain ⟨logs, hlogs⟩ :=
    d.reportAll_eq s (collect (readClauses typeAndName) (s.findAll ["@typedef"])).refused
  simp only [typedefNameRule, hlogs]
  split
  · exact hd
  · refine { hd with name := ?_ }
    cases List.getLast? _ |>.bind fun x : Descriptor.Clauses => x.nameText <;> rfl

theorem plain_applyExternal {r : Record} (hr : r.Plain) (tag : Tag) :
    (applyExternal r tag).Plain := by
  rw [applyExternal]
  split
  · exact hr
  · exact { hr with name := rfl }
  · exact { hr with name := rfl }

theorem keepsPlain_externalNameRule : externalNameRule.KeepsPlain := by
  intro s d _ hd
  simp only [externalNameRule]
  split
  · exact hd
  · exact List.foldlRecOn (motive := Record.Plain) _ _ hd fun r hr tag _ =>
      plain_applyExternal hr tag

theorem keepsPlain_moduleRules : ∀ e ∈ Category.moduleRules, e.2.KeepsPlain := by
  simp only [Category.moduleRules, List.forall_mem_cons]
  refine ⟨.assign fun _ hr => { hr with memberof := hr.filePath },
    .assign fun _ hr => { hr with exported := rfl },
    .assign fun hs hr => { hr with importPath := hs.importPath },
    .assign fun {s r} hs hr => { hr with importStyle := ?_ }, List.forall_mem_nil _⟩
  show (if r.name.truthy then s.symbol.importStyle else Value.null).isJson = true
  split
  · exact hs.importStyle
  · rfl

theorem keepsPlain_callableRules : ∀ e ∈ Category.callableRules, e.2.KeepsPlain := by
  simp only [Category.callableRules, List.forall_mem_cons]
  exact ⟨.assign fun _ hr => { hr with }, List.forall_mem_nil _⟩

theorem keepsPlain_fileRules : ∀ e ∈ Category.fileRules, e.2.KeepsPlain := by
  simp only [Category.fileRules, List.forall_mem_cons]
  exact ⟨.assign fun hs hr => { hr with name := hs.filePath },
    .assign fun _ hr => { hr with memberof := rfl },
    .assign fun _ hr => { hr with longname := hr.name },
    .assign fun hs hr => { hr with content := hs.content },
    .assign fun _ hr => { hr with undocumented := rfl },
    List.forall_mem_nil _⟩

theorem keepsPlain_classRules : ∀ e ∈ Category.classRules, e.2.KeepsPlain := by
  simp only [Category.classRules, List.forall_mem_cons]
  exact ⟨keepsPlain_extendsRule, .assign fun _ hr => { hr with }, .assign fun _ hr => { hr with },
    List.forall_mem_nil _⟩

theorem keepsPlain_methodQualifierRule : methodQualifierRule.KeepsPlain := by
  refine .assign fun {s r} hs hr => { hr with qualifier := ?_ }
  show (if s.symbol.qualifier.truthy then s.symbol.qualifier else Value.str "method").isJson = true
  split
  · exact hs.qualifier
  · rfl

theorem keepsPlain_testMemberofRule : testMemberofRule.KeepsPlain := by
  refine .assign fun {s r} hs hr => { hr with memberof := ?_ }
  show (if s.symbol.owner.truthy then s.symbol.owner else r.filePath).isJson = true
  split
  · exact hs.owner
  · exact hr.filePath

end Rule

namespace Category

open Rule

theorem keepsPlain_compose {kind : String} {special : Named DocRule}
    (h : ∀ e ∈ special, e.2.KeepsPlain) : ∀ e ∈ compose kind special, e.2.KeepsPlain := by
  have hkind : (kindRule kind).KeepsPlain := .assign fun _ hr => { hr with }
  exact Named.forall_mem_putAll (List.forall_mem_cons.mpr ⟨hkind, keepsPlain_sharedRules⟩) h

/-- All rules of all categories take over only what the symbol says. -/
theorem keepsPlain_of_mem_all : ∀ c ∈ all, ∀ e ∈ c.rules, e.2.KeepsPlain := by
  have howner : memberofOwnerRule.KeepsPlain :=
    .assign fun hs hr => { hr with memberof := hs.owner }
  have hfile : memberofFileRule.KeepsPlain :=
    .assign fun _ hr => { hr with memberof := hr.filePath }
  simp only [all, List.forall_mem_cons]
  refine ⟨keepsPlain_compose keepsPlain_fileRules, keepsPlain_compose keepsPlain_fileRules,
    keepsPlain_compose (List.forall_mem_append.mpr ⟨keepsPlain_fileRules, ?memory⟩),
    keepsPlain_compose (List.forall_mem_append.mpr
      ⟨keepsPlain_moduleRules, keepsPlain_classRules⟩),
    keepsPlain_compose (List.forall_mem_append.mpr
      ⟨keepsPlain_moduleRules, keepsPlain_callableRules⟩),
    keepsPlain_compose keepsPlain_moduleRules, keepsPlain_compose keepsPlain_moduleRules,
    keepsPlain_compose ?member, keepsPlain_compose ?member,
    keepsPlain_compose (List.forall_mem_append.mpr ⟨?method, keepsPlain_callableRules⟩),
    keepsPlain_compose ?typedef, keepsPlain_compose ?external, keepsPlain_compose ?test,
    List.forall_mem_nil _⟩
  all_goals simp only [List.forall_mem_cons]
  case memory => exact ⟨.assign fun _ hr => { hr with name := rfl }, List.forall_mem_nil _⟩
  case member => exact ⟨howner, List.forall_mem_nil _⟩
  case method => exact ⟨howner, keepsPlain_methodQualifierRule, List.forall_mem_nil _⟩
  case typedef =>
    refine ⟨hfile, keepsPlain_typedefNameRule, .reading fun found _ hr => ?_, List.forall_mem_nil _⟩
    cases found with
    | none => exact hr
    | some d => exact { hr with }
  case external =>
    exact ⟨hfile, keepsPlain_externalNameRule, .assign fun _ hr => { hr with longname := hr.name },
      List.forall_mem_nil _⟩
  case test =>
    exact ⟨keepsPlain_testMemberofRule,
      .assign fun hs hr => { hr with name := hs.testName, testId := hs.testId },
      .assign fun _ hr => { hr with }, List.forall_mem_nil _⟩

end Category

/-! ### Entries -/

/-- A draft whose record is plain, and whose problems are reported for paths from JSON. -/
structure Rule.Draft.Plain (d : Draft) : Prop where
  record : d.record.Plain
  diagnostics : ∀ g ∈ d.diagnostics, g.filePath.isJson = true

namespace Interpretation

open Rule

variable {c : Category} {s : Scope} {blank : Record}

theorem plain_effect {d : Draft} {name : String} {rule : DocRule} (hd : d.Plain)
    (hs : s.symbol.Plain) (hrule : rule.Disciplined name) (hkeeps : rule.KeepsPlain) :
    Draft.Plain (rule.effect s d).1 := by
  have hpath : (d.reportPath s).isJson = true := by
    rw [Draft.reportPath]
    split
    · exact hd.record.filePath
    · exact hs.filePath
  refine ⟨hkeeps s d hs hd.record, ?_⟩
  rw [hrule.diagnostics_eq]
  exact List.forall_mem_append.mpr ⟨hd.diagnostics, List.forall_mem_map.mpr fun _ _ => hpath⟩

/-- Interpreting tags leaves a draft plain, however far it comes. -/
theorem plain_interpretAs (strict : Bool) (hc : c ∈ Category.all) (hs : s.symbol.Plain)
    (hblank : blank.Plain) : Draft.Plain (interpretAs c strict s blank).1 := by
  have heffect : ∀ {d name rule}, Draft.Plain d → (name, rule) ∈ c.rules →
      Draft.Plain (DocRule.effect rule s d).1 := fun hd hmem =>
    plain_effect hd hs (Category.disciplined_of_mem_all c hc _ hmem)
      (Category.keepsPlain_of_mem_all c hc _ hmem)
  have hrun : Draft.Plain (runOf c strict s blank).1.state := by
    rcases runOf_keeps (c := c) (P := fun p => Draft.Plain p.state)
      (fun hp _ _ => ⟨hp.record, hp.diagnostics⟩) (fun hp _ hmem _ _ => heffect hp hmem)
      (show Draft.Plain ⟨blank, [], []⟩ from ⟨hblank, List.forall_mem_nil _⟩) with
      ⟨hend, _⟩ | ⟨p, _, _, hp, _, hmem, _, _, hstate, _⟩
    · exact hend
    · rw [hstate]
      exact heffect hp hmem
  rw [interpretAs, ← runOf]
  split
  · next h => rwa [h] at hrun
  · next h =>
    rw [h] at hrun
    exact ⟨{ hrun.record with }, hrun.diagnostics⟩

end Interpretation

namespace Intake

/-- An intake of plain records, with problems reported for paths from JSON. -/
structure Plain (i : Intake) : Prop where
  records : ∀ r ∈ i.store.records, r.Plain
  diagnostics : ∀ g ∈ i.diagnostics, g.filePath.isJson = true

theorem plain_start (strict : Bool) : (start strict).Plain :=
  ⟨List.forall_mem_nil _, List.forall_mem_nil _⟩

/-- What goes through in two parts goes through in the first. -/
theorem exists_of_bind_eq_ok {ε α β : Type} {x : Except ε α} {f : α → Except ε β} {b : β}
    (h : x >>= f = .ok b) : ∃ a, x = .ok a ∧ f a = .ok b := by
  cases x with
  | error e => cases h
  | ok a => exact ⟨a, rfl, h⟩

theorem plain_of_symbolOf {context : Value} {s : Symbol} (hcontext : context.isJson = true)
    (h : symbolOf context = .ok s) : s.Plain := by
  have hofEntries : ∀ data : List (Value × Value), Value.entriesJson data = true →
      (Symbol.ofEntries data).mapError IntakeError.symbol = .ok s → s.Plain := by
    intro data hdata hok
    cases hentries : Symbol.ofEntries data with
    | error e =>
      rw [hentries] at hok
      cases hok
    | ok t =>
      rw [hentries] at hok
      obtain rfl := Except.ok.inj hok
      exact Symbol.plain_ofEntries hdata hentries
  cases context with
  | null => exact hofEntries [] rfl h
  | dict data => exact hofEntries data hcontext h
  | _ => cases h

/-- The symbol of an entry that is JSON is plain. -/
theorem plain_of_readEntry {v : Value} {e : Entry} (hv : v.isJson = true)
    (h : readEntry v = .ok e) : e.symbol.Plain := by
  cases v with
  | dict entries =>
    have hcontext : ((Value.lookup entries "context").getD .null).isJson = true := by
      cases hlookup : Value.lookup entries "context" with
      | none => rfl
      | some w => exact Value.isJson_of_lookup hv hlookup
    simp only [readEntry] at h
    split at h
    · cases h
    · split at h
      · obtain ⟨symbol, hsymbol, h⟩ := exists_of_bind_eq_ok h
        obtain ⟨tags, _, h⟩ := exists_of_bind_eq_ok h
        obtain ⟨comment, _, h⟩ := exists_of_bind_eq_ok h
        obtain rfl := Except.ok.inj h
        exact plain_of_symbolOf hcontext hsymbol
      · cases h
  | _ => cases h

theorem Plain.createIn [names : CharacterNames] {i : Intake} (h : i.Plain) {c : Category}
    (hc : c ∈ Category.all) (files : Files.Tree) {e : Entry} (he : e.symbol.Plain) :
    (createIn c files i e).1.Plain := by
  have hfresh : ∀ id moduleId,
      Record.Plain { id := id, category := c.name, moduleId := moduleId } := fun _ _ =>
    ⟨rfl, rfl, rfl, rfl, rfl, rfl, rfl, rfl, rfl, rfl, rfl, rfl, rfl, rfl, rfl,
      List.forall_mem_nil _, fun kind => by cases kind <;> exact List.forall_mem_nil _, nofun⟩
  have hdraft := Interpretation.plain_interpretAs i.strict
    (s := ⟨e.tags, e.symbol, files, names⟩) hc he (hfresh i.store.reserve.2
      (if isModule c.name then none else moduleAt? i.modules e.symbol.filePath))
  have hdiagnostics := List.forall_mem_append.mpr ⟨h.diagnostics, hdraft.diagnostics⟩
  simp only [Intake.createIn]
  split
  · exact ⟨h.records, hdiagnostics⟩
  · split
    · exact ⟨h.records, hdiagnostics⟩
    · next store hinsert =>
      obtain ⟨_, rfl⟩ := Store.insert_eq_ok_iff.mp hinsert
      refine ⟨List.forall_mem_append.mpr ⟨h.records, ?_⟩, hdiagnostics⟩
      exact List.forall_mem_singleton.mpr hdraft.record

theorem Plain.create [CharacterNames] {i : Intake} (h : i.Plain) (files : Files.Tree) {v : Value}
    (hv : v.isJson = true) : (create files i v).1.Plain := by
  rw [Intake.create]
  split
  · exact h
  · next e hread =>
    split
    · exact h
    · next c hfind =>
      rw [createAs]
      split
      · exact h.createIn (List.mem_of_find?_eq_some hfind) files (plain_of_readEntry hv hread)
      · exact ⟨h.records, h.diagnostics⟩

/-- Entries that are JSON are taken in as plain records. -/
theorem Plain.createAll [CharacterNames] {files : List Log.Entry → Files.Tree} :
    ∀ {entries : List Value} {i : Intake}, i.Plain → (∀ v ∈ entries, v.isJson = true) →
      (createAll files i entries).1.Plain
  | [], i, h, _ => h
  | v :: vs, i, h, hentries => by
    obtain ⟨hv, hvs⟩ := List.forall_mem_cons.mp hentries
    have hnext := h.create (files i.logs) hv
    rw [Intake.createAll]
    split
    · next hcreate => rwa [hcreate] at hnext
    · next hcreate =>
      rw [hcreate] at hnext
      exact hnext.createAll hvs

end Intake

end DocGraph
