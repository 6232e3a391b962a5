import DocGraph.Proofs.Intake.Plain
import DocGraph.Proofs.Resolution.Frame
import DocGraph.Report

/-! When a report can be written.

    What records take over from their entries is plain, and resolution adds nothing that is not
    (`plain_resolveRecords`), so that only defaults are left to look at (`wellKeyed_toValue_iff`): a
    default is read from the text of a tag, and may be a dictionary with any keys. The report of a run
    over JSON entries can be written exactly if the keys in all defaults fit, and no integer is too
    long (`exists_report_resolveEntries_iff`). -/

namespace DocGraph

/-! ### The defaults in a record -/

/-- The default that a descriptor gives, if any. -/
def Descriptor.defaults (d : Descriptor) : List Value :=
  ((d.subject.bind Subject.default).map Default.value).toList

/-- The defaults in an attribute. -/
def Attribute.defaults : Attribute → List Value
  | .descriptor d => d.defaults
  | .descriptors ds => ds.flatMap Descriptor.defaults
  | _ => []

/-- The defaults that a record shows. -/
def Record.defaults (r : Record) : List Value := r.attributes.flatMap fun a => a.2.defaults

open Value

theorem Subject.wellKeyed_fields_iff (s : Subject) :
    (∀ e ∈ s.fields, e.2.wellKeyed = true) ↔
      ∀ v ∈ (s.default.map Default.value).toList, v.wellKeyed = true := by
  obtain ⟨name, optional, default⟩ := s
  cases default with
  | none => simp [fields, wellKeyed]
  | some d => simp [fields, wellKeyed]

theorem Descriptor.wellKeyed_toValue_iff (d : Descriptor) :
    d.toValue.wellKeyed = true ↔ ∀ v ∈ d.defaults, v.wellKeyed = true := by
  obtain ⟨types, nullable, spread, subject, description⟩ := d
  have htypes : allWellKeyed (types.map .str) = true :=
    allWellKeyed_iff.mpr (List.forall_mem_map.mpr fun _ _ => rfl)
  rw [toValue, wellKeyed_object_iff, List.forall_mem_append, List.forall_mem_append]
  cases subject with
  | none => cases nullable <;> cases description <;> simp [defaults, wellKeyed, htypes]
  | some s =>
    have hsubject := s.wellKeyed_fields_iff
    cases nullable <;> cases description <;> simpa [defaults, wellKeyed, htypes] using hsubject

theorem Tag.wellKeyed_toValue (t : Tag) : t.toValue.wellKeyed = true :=
  wellKeyed_object_iff.mpr (by simp [wellKeyed])

/-- An attribute is a JSON value, unless it holds descriptors or tags. -/
def Attribute.Plain (a : Attribute) : Prop := ∀ v, a = .value v → v.isJson = true

namespace Attribute

theorem wellKeyed_toValue_iff {a : Attribute} (h : a.Plain) :
    a.toValue.wellKeyed = true ↔ ∀ v ∈ a.defaults, v.wellKeyed = true := by
  cases a with
  | value v => simp [toValue, defaults, wellKeyed_of_isJson (h v rfl)]
  | descriptor d => exact d.wellKeyed_toValue_iff
  | descriptors ds =>
    simp only [toValue, wellKeyed_list_iff, List.forall_mem_map, Descriptor.wellKeyed_toValue_iff,
      defaults, List.forall_mem_flatMap]
  | tags ts => simp [toValue, defaults, wellKeyed_list_iff, Tag.wellKeyed_toValue]

theorem plain_value {v : Value} (h : v.isJson = true) : (value v).Plain := by
  rintro w ⟨⟩
  exact h

theorem plain_ofText (o : Option String) : (ofText o).Plain :=
  plain_value (by cases o <;> rfl)

theorem plain_ofFlag (o : Option Bool) : (ofFlag o).Plain := by
  cases o <;> exact plain_value rfl

theorem plain_ofInt (o : Option Int) : (ofInt o).Plain := by
  cases o <;> exact plain_value rfl

theorem plain_ofValues {o : Option (List Value)} (h : ∀ v ∈ o.getD [], v.isJson = true) :
    (ofValues o).Plain := by
  cases o with
  | none => exact plain_value rfl
  | some vs => exact plain_value (allJson_iff.mpr h)

theorem plain_ofTexts (o : Option (List String)) : (ofTexts o).Plain := by
  cases o with
  | none => exact plain_value rfl
  | some ss => exact plain_value (allJson_iff.mpr (List.forall_mem_map.mpr fun _ _ => rfl))

theorem plain_ofDescriptor (o : Option Descriptor) : (ofDescriptor o).Plain := by
  cases o with
  | none => exact plain_value rfl
  | some d => exact nofun

theorem plain_ofDescriptors (o : Option (List Descriptor)) : (ofDescriptors o).Plain := by
  cases o with
  | none => exact plain_value rfl
  | some ds => exact nofun

end Attribute

namespace Record

open Attribute

theorem Plain.fields {r : Record} (h : r.Plain) : ∀ a ∈ r.fields, a.2.Plain := by
  simp only [Record.fields, List.forall_mem_cons]
  exact ⟨plain_value rfl, plain_value rfl, plain_ofInt _, plain_ofText _, plain_value h.name,
    plain_value h.memberof, plain_value h.longname, plain_value rfl, plain_value h.qualifier,
    plain_ofText _, plain_value h.exported, plain_value h.ignored, plain_value h.undocumented,
    plain_value h.filePath, plain_ofText _, plain_ofDescriptors _, plain_ofDescriptors _,
    plain_ofDescriptor _, plain_ofDescriptor _, plain_ofDescriptor _, plain_ofTexts _,
    plain_ofTexts _, plain_ofText _, plain_ofText _, plain_value h.deprecated,
    plain_value h.experimental, plain_ofFlag _, plain_ofFlag _, plain_ofTexts _,
    plain_ofDescriptors _, plain_ofDescriptors _, plain_ofDescriptors _, plain_ofTexts _,
    plain_ofTexts _, plain_ofFlag _, plain_ofText _, plain_ofTexts _, plain_value h.testId,
    plain_value h.importPath, plain_value h.importStyle, plain_ofFlag _, plain_ofFlag _,
    plain_ofValues h.decorators, plain_value h.lineNumber, plain_value h.content, nofun, nofun,
    plain_ofTexts _, plain_ofValues (h.dependents .directSubclass),
    plain_ofValues (h.dependents .indirectSubclass), plain_ofTexts _,
    plain_ofValues (h.dependents .directImplementer),
    plain_ofValues (h.dependents .indirectImplementer), plain_ofTexts _, List.forall_mem_nil _⟩

theorem Plain.attributes {r : Record} (h : r.Plain) : ∀ a ∈ r.attributes, a.2.Plain := by
  rw [Record.attributes]
  refine List.forall_mem_map.mpr fun a ha => ?_
  cases hextra : r.extra.get? a.1 with
  | none => exact h.fields a ha
  | some v => exact plain_value (h.beside a.1 v hextra)

/-- The keys in a plain record fit if they do in its defaults. -/
theorem wellKeyed_toValue_iff {r : Record} (h : r.Plain) :
    r.toValue.wellKeyed = true ↔ ∀ v ∈ r.defaults, v.wellKeyed = true := by
  rw [toValue, wellKeyed_object_iff, List.forall_mem_map, defaults, List.forall_mem_flatMap]
  exact forall₂_congr fun a ha => Attribute.wellKeyed_toValue_iff (h.attributes a ha)

end Record

/-! ### Resolution -/

namespace Resolution

open Relations

theorem isJson_of_oddParent? {r : Record}
    (h : ∀ v, r.extra.get? "extends" = some v → v.isJson = true) {parent : Value}
    (hparent : oddParent? r = some parent) : parent.isJson = true := by
  rw [oddParent?] at hparent
  split at hparent
  · cases hparent
  · next first rest _ hextends =>
    have hlist := allJson_iff.mp (h _ hextends)
    split at hparent
    · exact Option.some.inj hparent ▸ hlist first List.mem_cons_self
    · cases hparent
  · cases hparent

/-- What stands beside the fields of a record stays plain when relations are derived. -/
theorem isJson_besideOf {r : Record}
    (h : ∀ name v, isUnrelated name = true → r.extra.get? name = some v → v.isJson = true) :
    ∀ name v, (besideOf r).get? name = some v → v.isJson = true := by
  have hkept : ∀ name v, Named.get? (r.extra.filter fun e => isUnrelated e.1) name = some v →
      v.isJson = true := by
    intro name v hget
    cases hname : isUnrelated name with
    | true =>
      rw [Named.get?_filter isUnrelated hname] at hget
      exact h name v hname hget
    | false =>
      rw [Named.get?_filter_of_not isUnrelated hname] at hget
      cases hget
  simp only [besideOf]
  split
  · next parent hparent =>
    have hodd := isJson_of_oddParent? (h "extends" · (by decide)) hparent
    exact Named.forall_get?_put (P := (Value.isJson · = true)) (isJson_singleton hodd) hkept
  · exact hkept

theorem CutValue.isJson {settings : Settings} {head : String} {short long : Value}
    (h : CutValue settings head short long) (hlong : long.isJson = true) :
    short.isJson = true := by
  cases h with
  | same => exact hlong
  | name => rfl

theorem exists_of_sublistForall₂ {α β : Type} {R : α → β → Prop} {as : List α} {bs : List β}
    (h : List.SublistForall₂ R as bs) {a : α} (ha : a ∈ as) : ∃ b ∈ bs, R a b := by
  induction h with
  | nil => cases ha
  | cons hr _ ih =>
    rcases List.mem_cons.mp ha with rfl | hrest
    · exact ⟨_, List.mem_cons_self, hr⟩
    · obtain ⟨b, hb, hr⟩ := ih hrest
      exact ⟨b, List.mem_cons_of_mem _ hb, hr⟩
  | cons_right _ ih =>
    obtain ⟨b, hb, hr⟩ := ih ha
    exact ⟨b, List.mem_cons_of_mem _ hb, hr⟩

theorem plain_of_touched {settings : Settings} {head : String} {r q : Record}
    (h : Touched settings head r q) (hq : q.Plain) (hdependents : ∀ kind,
      ∀ v ∈ (Relations.listed kind r.relations).getD [], v.isJson = true)
    (hbeside : r.extra = besideOf r) : r.Plain := by
  have hexported : r.exported.isJson = true := by
    rcases h.exported with he | ⟨_, he⟩
    · rw [he]
      exact hq.exported
    · rw [he]
      rfl
  have hkept : ∀ name v, isUnrelated name = true → r.extra.get? name = some v →
      v.isJson = true := by
    intro name v hname hget
    by_cases haccess : name = "access"
    · rw [haccess, h.oddAccess.2] at hget
      cases hget
    · exact hq.beside name v (h.beside name haccess hname ▸ hget)
  have hsame : ∀ {v w : Value}, v = w → w.isJson = true → v.isJson = true := fun hvw hw => hvw ▸ hw
  have hdecorators : r.decorators = q.decorators := h.others .decorators (by decide)
  exact
    { name := h.name.isJson hq.name
      memberof := h.memberof.isJson hq.memberof
      longname := h.longname.isJson hq.longname
      qualifier := hsame (h.others .qualifier (by decide)) hq.qualifier
      exported := hexported
      ignored := hsame (h.others .ignored (by decide)) hq.ignored
      undocumented := hsame (h.others .undocumented (by decide)) hq.undocumented
      filePath := hsame (h.others .filePath (by decide)) hq.filePath
      deprecated := hsame (h.others .deprecated (by decide)) hq.deprecated
      experimental := hsame (h.others .experimental (by decide)) hq.experimental
      testId := hsame (h.others .testId (by decide)) hq.testId
      importPath := hsame (h.others .importPath (by decide)) hq.importPath
      importStyle := hsame (h.others .importStyle (by decide)) hq.importStyle
      lineNumber := hsame (h.others .lineNumber (by decide)) hq.lineNumber
      content := hsame (h.others .content (by decide)) hq.content
      decorators := hdecorators ▸ hq.decorators
      dependents := hdependents
      beside := hbeside ▸ isJson_besideOf hkept }

/-- The records that resolution keeps are plain if those were that it was given. -/
theorem plain_resolveRecords (settings : Settings) {records : List Record}
    (h : ∀ r ∈ records, r.Plain) : ∀ r ∈ resolveRecords settings records, r.Plain := by
  intro r hr
  have hsettled := settled_resolveRecords settings records
  have htouched := touched_resolveRecords settings records
  obtain ⟨q, hq, hrq⟩ := exists_of_sublistForall₂ htouched hr
  have hlongnames : ∀ c ∈ resolveRecords settings records, c.longname.isJson = true := by
    intro c hc
    obtain ⟨p, hp, hcp⟩ := exists_of_sublistForall₂ htouched hc
    exact hcp.longname.isJson (h p hp).longname
  refine plain_of_touched hrq (h q hq) (fun kind v hv => ?_) (hsettled r hr).2
  rw [(hsettled r hr).1, listed_derived, getD_nonEmpty] at hv
  obtain ⟨c, hc, hv⟩ := List.mem_flatMap.mp hv
  obtain ⟨_, _, rfl⟩ := List.mem_map.mp hv
  exact hlongnames c (List.mem_filter.mp hc).1

end Resolution

/-! ### Reports -/

theorem Diagnostic.wellKeyed_toValue {d : Diagnostic} (h : d.filePath.isJson = true) :
    d.toValue.wellKeyed = true :=
  wellKeyed_object_iff.mpr (by simp [wellKeyed, wellKeyed_of_isJson h])

theorem Outcome.wellKeyed_toValue_iff {o : Outcome} (hrecords : ∀ r ∈ o.store.records, r.Plain)
    (hdiagnostics : ∀ g ∈ o.diagnostics, g.filePath.isJson = true) :
    o.toValue.wellKeyed = true ↔
      ∀ r ∈ o.store.records, ∀ v ∈ r.defaults, v.wellKeyed = true := by
  have hreported : (Value.list (o.diagnostics.map Diagnostic.toValue)).wellKeyed = true :=
    wellKeyed_list_iff.mpr
      (List.forall_mem_map.mpr fun g hg => Diagnostic.wellKeyed_toValue (hdiagnostics g hg))
  rw [toValue, wellKeyed_object_iff, List.forall_mem_cons, List.forall_mem_singleton,
    and_iff_left hreported, wellKeyed_list_iff, List.forall_mem_map]
  exact forall₂_congr fun r hr => Record.wellKeyed_toValue_iff (hrecords r hr)

theorem Outcome.exists_report_iff (o : Outcome) :
    (∃ text, o.report = .ok text) ↔
      o.toValue.wellKeyed = true ∧ o.toValue.hasLongInteger = false := by
  have hwrite : (∃ text, o.report = .ok text) ↔
      (Json.write Outcome.style o.toValue).isOk = true := by
    rw [Outcome.report]
    cases Json.write Outcome.style o.toValue with
    | error e =>
      constructor
      · rintro ⟨text, htext⟩
        cases htext
      · intro hok
        cases hok
    | ok text => exact ⟨fun _ => rfl, fun _ => ⟨_, rfl⟩⟩
  rw [hwrite, Json.write, Json.isOk_writeAt rfl, Bool.and_eq_true, Bool.not_eq_true']

namespace Pipeline

section Runs

variable [CharacterNames] {settings : Settings} {files : List Log.Entry → Files.Tree}
  {entries : List Value} {logs : List Log.Entry} {o : Outcome}

/-- A run that goes through resolves what it has taken in. -/
theorem eq_of_resolveEntries (h : resolveEntries settings files entries = (logs, .ok o)) :
    o.store = Resolution.resolve settings
        (Intake.createAll files (.start settings.strict) entries).1.store ∧
      o.diagnostics = (Intake.createAll files (.start settings.strict) entries).1.diagnostics := by
  simp only [resolveEntries] at h
  split at h
  · cases (congrArg Prod.snd h :)
  · next i hcreate =>
    rw [hcreate]
    split at h
    · cases (congrArg Prod.snd h :)
    · obtain rfl := Except.ok.inj (congrArg Prod.snd h)
      exact ⟨rfl, rfl⟩

/-- What a check finds in the outcome of a run is so. -/
theorem exists_outcome {check : Outcome → Bool}
    (h : (match (resolveEntries settings files entries).2 with
      | .ok o => check o
      | .error _ => false) = true) :
    ∃ logs o, resolveEntries settings files entries = (logs, .ok o) ∧ check o = true := by
  cases hrun : resolveEntries settings files entries with
  | mk logs result =>
    rw [hrun] at h
    cases result with
    | error e => cases h
    | ok o => exact ⟨logs, o, rfl, h⟩

/-- The report of a run over JSON entries can be written exactly if the keys in all defaults of the
    records can be, and no integer in it is too long. -/
theorem exists_report_resolveEntries_iff (hentries : ∀ v ∈ entries, v.isJson = true)
    (h : resolveEntries settings files entries = (logs, .ok o)) :
    (∃ text, o.report = .ok text) ↔
      (∀ r ∈ o.store.records, ∀ v ∈ r.defaults, v.wellKeyed = true) ∧
        o.toValue.hasLongInteger = false := by
  obtain ⟨hstore, hreported⟩ := eq_of_resolveEntries h
  have hplain : (Intake.createAll files (.start settings.strict) entries).1.Plain :=
    (Intake.plain_start settings.strict).createAll hentries
  have hrecords : ∀ r ∈ o.store.records, r.Plain := by
    rw [hstore]
    exact Resolution.plain_resolveRecords settings hplain.records
  have hdiagnostics : ∀ g ∈ o.diagnostics, g.filePath.isJson = true := by
    rw [hreported]
    exact hplain.diagnostics
  rw [o.exists_report_iff, Outcome.wellKeyed_toValue_iff hrecords hdiagnostics]

end Runs

/-- A function whose options have a default. -/
def withDefault (default : String) : List Value :=
  [.object [("category", .str "Function"),
    ("context", .object [("file_path", .str "a.js"), ("name", .str "f"), ("export", .bool true)]),
    ("tags", .list [.object [("tag_name", .str "@param"),
      ("tag_value", .str ("\x7bObject\x7d [options=" ++ default ++ "]"))]])]]

/-- A default with numbers for keys, and a dictionary inside. -/
theorem exists_report_nested :
    ∃ logs o, resolveEntries {} (fun _ => ⟨[], []⟩)
        (withDefault "\x7b1: 2, True: 3, 4: (5, \x7b'a': None\x7d)\x7d") = (logs, .ok o) ∧
      (o.store.records.flatMap Record.defaults).length = 1 ∧ ∃ text, o.report = .ok text := by
  have hrun : (match (resolveEntries {} (fun _ => ⟨[], []⟩)
      (withDefault "\x7b1: 2, True: 3, 4: (5, \x7b'a': None\x7d)\x7d")).2 with
      | .ok o => (o.store.records.flatMap Record.defaults).length == 1 &&
          (o.store.records.all fun r => r.defaults.all Value.wellKeyed) &&
          !o.toValue.hasLongInteger
      | .error _ => false) = true := by decide +kernel
  obtain ⟨logs, o, ho, hcheck⟩ := exists_outcome hrun
  simp only [Bool.and_eq_true, beq_iff_eq, List.all_eq_true, Bool.not_eq_true'] at hcheck
  obtain ⟨⟨hone, hkeys⟩, hshort⟩ := hcheck
  refine ⟨logs, o, ho, hone, ?_⟩
  exact (exists_report_resolveEntries_iff (List.all_eq_true.mp (by decide +kernel)) ho).mpr
    ⟨hkeys, hshort⟩

/-- A default with a number and a text for keys is read, but cannot be written. -/
theorem not_exists_report_mixed :
    (∀ v ∈ withDefault "\x7b1: 2, 'a': 3\x7d", v.isJson = true) ∧
      ∃ logs o, resolveEntries {} (fun _ => ⟨[], []⟩) (withDefault "\x7b1: 2, 'a': 3\x7d") =
        (logs, .ok o) ∧ ¬ ∃ text, o.report = .ok text := by
  have hrun : (match (resolveEntries {} (fun _ => ⟨[], []⟩)
      (withDefault "\x7b1: 2, 'a': 3\x7d")).2 with
      | .ok o => !o.toValue.wellKeyed
      | .error _ => false) = true := by decide +kernel
  refine ⟨List.all_eq_true.mp (by decide +kernel), ?_⟩
  obtain ⟨logs, o, ho, hkeys⟩ := exists_outcome hrun
  refine ⟨logs, o, ho, fun htext => ?_⟩
  rw [(o.exists_report_iff.mp htext).1] at hkeys
  cases hkeys

end Pipeline

end DocGraph
