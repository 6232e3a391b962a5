import Mathlib.Data.List.Nodup
import DocGraph.Proofs.Resolution.Lists
import DocGraph.Proofs.Resolution.Survivors

/-! The files that depend on a record.

    A class puts its file on every record that it depends on, in one of four ways, and a class
    passes the files that it has gathered on to the record of its own file. Both happen in place and
    in turn, but no file is added twice and classes do not gather from other classes, so it comes to
    sets: the files of the classes that are recorded in the lists of a record, and for a record of a
    file also those of the classes in it (`resolve_dependentPaths`). -/

namespace DocGraph

/-! ### Lists to which new texts are added -/

namespace Relations

/-- One text is added unless it is there. -/
theorem addNew_cons (known more : List String) (text : String) :
    addNew known (text :: more) =
      addNew (if known.contains text then known else known ++ [text]) more :=
  rfl

theorem mem_addNew {text : String} : ∀ {more known : List String},
    text ∈ addNew known more ↔ text ∈ known ∨ text ∈ more
  | [], known => by simp [addNew]
  | t :: more, known => by
    rw [addNew_cons, mem_addNew, List.mem_cons, ← or_assoc]
    refine or_congr_left ?_
    split
    · next h =>
      have hknown : t ∈ known := by simpa using h
      refine ⟨Or.inl, fun ht => ht.elim (fun h => h) ?_⟩
      rintro rfl
      exact hknown
    · rw [List.mem_append, List.mem_singleton]

theorem nodup_addNew : ∀ {more known : List String}, known.Nodup → (addNew known more).Nodup
  | [], known, h => h
  | t :: more, known, h => by
    rw [addNew_cons]
    refine nodup_addNew ?_
    split
    · exact h
    · next hnew =>
      have hdisjoint : known.Disjoint [t] := List.disjoint_singleton.mpr (by simpa using hnew)
      exact h.append (List.nodup_singleton t) hdisjoint

/-! ### What links and classes add -/

/-- The files that depend on a record. -/
def paths (s : Relations) : List String := s.dependentPaths.getD []

theorem paths_withPaths (s : Relations) (more : List String) :
    (withPaths s more).paths = addNew s.paths more := rfl

theorem paths_withSource (s : Relations) (l : Link) : (withSource s l).paths = s.paths := by
  obtain ⟨target, kind, source, path⟩ := l
  cases kind <;> rfl

variable {records : List Record} {id : Int} {path : String}

/-- A link adds the file of its class, if that has one, to the record that it leads to. -/
theorem mem_paths_noteIn (s : Relations) (l : Link) :
    path ∈ (noteIn id s l).paths ↔
      path ∈ s.paths ∨ l.target = id ∧ Record.filledText l.path = some path := by
  rw [noteIn]
  split
  · next h => rw [paths_withPaths, paths_withSource, mem_addNew, Option.mem_toList, h]; simp
  · next h => simp [Ne.symm h]

theorem nodup_paths_noteIn {s : Relations} (hs : s.paths.Nodup) (l : Link) :
    (noteIn id s l).paths.Nodup := by
  rw [noteIn]
  split
  · rw [paths_withPaths, paths_withSource]
    exact nodup_addNew hs
  · exact hs

theorem bind_nonEmpty (known : Option (List String)) :
    known.bind Rule.nonEmpty = Rule.nonEmpty (known.getD []) := by
  cases known <;> rfl

/-- What a class passes on goes to the record of its file. -/
theorem mem_paths_passIn (s : Relations) (c : Record) :
    path ∈ (passIn records id s c).paths ↔
      path ∈ s.paths ∨
        (fileRecord? records c.filePath).map Record.id = some id ∧ path ∈ c.relations.paths := by
  rw [passIn, bind_nonEmpty, ← paths]
  cases hfile : fileRecord? records c.filePath with
  | none => simp
  | some file =>
    cases hpaths : c.relations.paths with
    | nil => simp [Rule.nonEmpty]
    | cons first more =>
      by_cases hid : id = file.id
      · simp [Rule.nonEmpty, hid, paths_withPaths, mem_addNew]
      · simp [Rule.nonEmpty, hid, Ne.symm hid]

theorem nodup_paths_passIn {s : Relations} (hs : s.paths.Nodup) (c : Record) :
    (passIn records id s c).paths.Nodup := by
  rw [passIn]
  split
  · split
    · rw [paths_withPaths]
      exact nodup_addNew hs
    · exact hs
  · exact hs

section Folds

variable {α : Type} {step : Relations → α → Relations}

/-- What is added one after the other is there in the end, and nothing else. -/
theorem mem_paths_foldl {adds : α → Prop}
    (hstep : ∀ s a, path ∈ (step s a).paths ↔ path ∈ s.paths ∨ adds a) :
    ∀ (items : List α) (s : Relations),
      path ∈ (items.foldl step s).paths ↔ path ∈ s.paths ∨ ∃ a ∈ items, adds a
  | [], s => by simp
  | a :: items, s => by
    rw [List.foldl_cons, mem_paths_foldl hstep items, hstep, or_assoc]
    simp

theorem nodup_paths_foldl (hstep : ∀ s a, s.paths.Nodup → (step s a).paths.Nodup) :
    ∀ (items : List α) (s : Relations), s.paths.Nodup → (items.foldl step s).paths.Nodup
  | [], _, hs => hs
  | a :: items, s, hs => nodup_paths_foldl hstep items _ (hstep s a hs)

end Folds

/-! ### The classes behind the lists -/

/-- The classes in a list of a record, each as often as its name is in the list. -/
def recorded (records : List Record) (kind : LinkKind) (r : Record) : List Record :=
  (records.filter isClass).flatMap fun c =>
    ((dependsOn records kind c).filter (leadsTo records r)).map fun _ => c

/-- The lists of a record hold the long names of the classes that are recorded in them. -/
theorem map_longname_recorded (records : List Record) (kind : LinkKind) (r : Record) :
    (recorded records kind r).map Record.longname =
      mentions records r (dependsOn records kind) := by
  rw [recorded, mentions, List.map_flatMap]
  simp only [List.map_map]
  rfl

theorem mem_recorded {kind : LinkKind} {c r : Record} :
    c ∈ recorded records kind r ↔ c ∈ records ∧ isClass c = true ∧
      ∃ name ∈ dependsOn records kind c, leadsTo records r name = true := by
  simp only [recorded, List.mem_flatMap, List.mem_map, List.mem_filter]
  constructor
  · rintro ⟨_, ⟨hc, hclass⟩, name, hname, rfl⟩
    exact ⟨hc, hclass, name, hname⟩
  · rintro ⟨hc, hclass, name, hname⟩
    exact ⟨c, ⟨hc, hclass⟩, name, hname, rfl⟩

theorem exists_mem_linksTo {P : Value → Prop} {c r : Record} {kind : LinkKind}
    {names : List String} :
    (∃ l ∈ linksTo records c kind names, l.target = r.id ∧ P l.path) ↔
      (∃ name ∈ names, leadsTo records r name = true) ∧ P c.filePath := by
  simp only [linksTo, List.mem_filterMap, leadsTo, decide_eq_true_iff, Option.map_eq_some_iff]
  constructor
  · rintro ⟨_, ⟨name, hname, t, ht, rfl⟩, hid, hp⟩
    exact ⟨⟨name, hname, t, ht, hid⟩, hp⟩
  · rintro ⟨⟨name, hname, t, ht, hid⟩, hp⟩
    exact ⟨_, ⟨name, hname, t, ht, rfl⟩, hid, hp⟩

/-- The links that lead to a record are those of the classes that are recorded in its lists. -/
theorem exists_mem_links {P : Value → Prop} {r : Record} :
    (∃ l ∈ links records, l.target = r.id ∧ P l.path) ↔
      ∃ kind, ∃ c ∈ recorded records kind r, P c.filePath := by
  have hfrom : ∀ c, (∃ l ∈ linksFrom records c, l.target = r.id ∧ P l.path) ↔
      ∃ kind, (∃ name ∈ dependsOn records kind c, leadsTo records r name = true) ∧
        P c.filePath := by
    intro c
    simp only [linksFrom, List.mem_append, or_and_right, exists_or, exists_mem_linksTo]
    constructor
    · rintro (((h | h) | h) | h)
      · exact ⟨.directSubclass, h⟩
      · exact ⟨.indirectSubclass, h⟩
      · exact ⟨.directImplementer, h⟩
      · exact ⟨.indirectImplementer, h⟩
    · rintro ⟨_ | _ | _ | _, h⟩
      · exact Or.inl (Or.inl (Or.inl h))
      · exact Or.inl (Or.inl (Or.inr h))
      · exact Or.inl (Or.inr h)
      · exact Or.inr h
  constructor
  · rintro ⟨l, hl, hlink⟩
    obtain ⟨c, hc, hmem⟩ := List.mem_flatMap.mp hl
    obtain ⟨kind, hname, hp⟩ := (hfrom c).mp ⟨l, hmem, hlink⟩
    obtain ⟨hrecord, hclass⟩ := List.mem_filter.mp hc
    exact ⟨kind, c, mem_recorded.mpr ⟨hrecord, hclass, hname⟩, hp⟩
  · rintro ⟨kind, c, hc, hp⟩
    obtain ⟨hrecord, hclass, hname⟩ := mem_recorded.mp hc
    obtain ⟨l, hmem, hlink⟩ := (hfrom c).mpr ⟨kind, hname, hp⟩
    exact ⟨l, List.mem_flatMap.mpr ⟨c, List.mem_filter.mpr ⟨hrecord, hclass⟩, hmem⟩, hlink⟩

/-! ### The files of a record -/

/-- The files that links bring are those of the classes that are recorded. -/
theorem mem_paths_linked {r : Record} :
    path ∈ (linked records r).paths ↔
      ∃ kind, ∃ c ∈ recorded records kind r, Record.filledText c.filePath = some path := by
  rw [linked, mem_paths_foldl mem_paths_noteIn,
    exists_mem_links (P := fun v => Record.filledText v = some path)]
  simp [ownRelations, paths]

theorem mem_paths_derived {r : Record} :
    path ∈ (derived records r).paths ↔
      path ∈ (linked records r).paths ∨
        ∃ c ∈ records, isClass c = true ∧
          (fileRecord? records c.filePath).map Record.id = some r.id ∧
          path ∈ (linked records c).paths := by
  rw [derived, mem_paths_foldl mem_paths_passIn]
  refine or_congr_right ?_
  constructor
  · rintro ⟨d, hd, hfile, hpath⟩
    obtain ⟨hmem, hclass⟩ := List.mem_filter.mp hd
    obtain ⟨c, hc, rfl⟩ := List.mem_map.mp hmem
    exact ⟨c, hc, hclass, hfile, hpath⟩
  · rintro ⟨c, hc, hclass, hfile, hpath⟩
    exact ⟨dressed (linked records) c, List.mem_filter.mpr ⟨List.mem_map_of_mem hc, hclass⟩, hfile,
      hpath⟩

theorem nodup_paths_derived (records : List Record) (r : Record) :
    (derived records r).paths.Nodup := by
  have hown : (ownRelations records r).paths.Nodup := List.nodup_nil
  refine nodup_paths_foldl (fun _ c hs => nodup_paths_passIn hs c) _ _ ?_
  exact nodup_paths_foldl (fun _ l hs => nodup_paths_noteIn hs l) _ _ hown

theorem fileRecord?_eq_some {v : Value} {f : Record} (h : fileRecord? records v = some f) :
    f ∈ records ∧ f.category = Category.file.name ∧ f.filePath.matchesLiteral v = true := by
  have hfile : (f.category = Category.file.name && f.filePath.matchesLiteral v) = true :=
    (List.find?_some h :)
  rw [Bool.and_eq_true, decide_eq_true_iff] at hfile
  exact ⟨List.mem_of_find?_eq_some h, hfile⟩

/-- No class is the record of a file, so nothing is passed on to classes. -/
theorem mem_paths_derived_of_isClass (hids : (records.map Record.id).Nodup) {r : Record}
    (hr : r ∈ records) (hclass : isClass r = true) :
    path ∈ (derived records r).paths ↔ path ∈ (linked records r).paths := by
  rw [mem_paths_derived, or_iff_left]
  rintro ⟨c, _, _, hfile, _⟩
  obtain ⟨f, hf, hid⟩ := Option.map_eq_some_iff.mp hfile
  obtain ⟨hmem, hcategory, _⟩ := fileRecord?_eq_some hf
  obtain rfl := List.inj_on_of_nodup_map hids hmem hr hid
  rw [isClass, hcategory] at hclass
  exact absurd hclass (by decide)

/-! ### Records of files -/

theorem matchesLiteral_ofText? {v : Value} {text : Option String} :
    v.matchesLiteral (.ofText? text) = true ↔ v = .ofText? text := by
  cases text <;> cases v <;>
    simp [Value.ofText?, Value.matchesLiteral, Value.same, Value.sameScalar, Value.quantity?]

theorem ofText?_matchesLiteral {v : Value} {text : Option String} :
    (Value.ofText? text).matchesLiteral v = true ↔ .ofText? text = v := by
  cases text <;> cases v <;>
    simp [Value.ofText?, Value.matchesLiteral, Value.same, Value.sameScalar, Value.quantity?]

/-- The first record of a file with a path, or without one. -/
def FirstFile (records : List Record) (path : Option String) (f : Record) : Prop :=
  f.category = Category.file.name ∧ f.filePath = .ofText? path ∧
    ∃ front back, records = front ++ f :: back ∧
      ∀ q ∈ front, q.category = Category.file.name → q.filePath ≠ .ofText? path

theorem firstFile_iff {text : Option String} {f : Record} :
    FirstFile records text f ↔ fileRecord? records (.ofText? text) = some f := by
  rw [fileRecord?, List.find?_eq_some_iff_append, FirstFile, ← and_assoc]
  refine and_congr ?_ (exists_congr fun front => exists_congr fun back => and_congr_right fun _ =>
    forall_congr' fun q => forall_congr' fun _ => ?_)
  · simp [matchesLiteral_ofText?]
  · simp [← matchesLiteral_ofText?, imp_iff_not_or]

/-- The classes that pass their files on to the first record of a file are those in the file. -/
theorem map_id_fileRecord?_iff (hids : (records.map Record.id).Nodup) {text : Option String}
    {f : Record} (hf : FirstFile records text f) {v : Value} :
    (fileRecord? records v).map Record.id = some f.id ↔ v = .ofText? text := by
  have hfirst := firstFile_iff.mp hf
  constructor
  · intro h
    obtain ⟨g, hg, hid⟩ := Option.map_eq_some_iff.mp h
    obtain ⟨hmem, _, hmatch⟩ := fileRecord?_eq_some hg
    obtain rfl := List.inj_on_of_nodup_map hids hmem (fileRecord?_eq_some hfirst).1 hid
    rw [hf.2.1, ofText?_matchesLiteral] at hmatch
    exact hmatch.symm
  · rintro rfl
    rw [hfirst]
    rfl

end Relations

namespace Resolution

open Relations Visibility

variable {settings : Settings} {records : List Record}

theorem ids_prepare (settings : Settings) (records : List Record) :
    (prepare settings records).map Record.id = records.map Record.id := by
  have huntouched := congrArg (List.map Record.id) (untouched_prepare settings records)
  rw [List.map_map, List.map_map] at huntouched
  exact (huntouched :).trans (shorten_ids settings records)

/-- Resolution keeps the identities of the records that it keeps. -/
theorem nodup_ids_resolveRecords (hids : (records.map Record.id).Nodup) :
    ((resolveRecords settings records).map Record.id).Nodup := by
  have hmark : (mark settings (prepare settings records)).map Record.id =
      records.map Record.id := by
    rw [← ids_prepare settings records, mark_eq_map, List.map_map]
    refine List.map_congr_left fun r _ => ?_
    exact (congrArg Record.id (unmarked_marked settings (prepare settings records) r) :)
  have hswept : (sweep (mark settings (prepare settings records))).Sublist
      (mark settings (prepare settings records)) := by
    rw [sweep_eq_filter]
    exact List.filter_sublist
  have hids' : (resolveRecords settings records).map Record.id =
      (sweep (mark settings (prepare settings records))).map Record.id := by
    have hbare := congrArg (List.map Record.id)
      (removeIgnored_bare (mark settings (prepare settings records)))
    rwa [List.map_map, List.map_map] at hbare
  rw [hids']
  exact (hswept.map Record.id).nodup (hmark ▸ hids)

/-- Every file stands once among those that depend on a record. Each list of a record holds the
    names of the classes that are recorded in it. The files that depend on a class are those of the
    classes that are recorded in its lists; on the first record of a file, they are the files that
    depend on the classes in the file, and those of the classes that refer to the record by its long
    name, if no record before it has that name. -/
theorem resolve_dependentPaths (settings : Settings) (s : Store) (hids : s.ids.Nodup) :
    let kept := (resolve settings s).records
    (∀ r ∈ kept, r.relations.paths.Nodup) ∧
      (∀ r ∈ kept, ∀ kind, listed kind r.relations =
        Rule.nonEmpty ((recorded kept kind r).map Record.longname)) ∧
      (∀ r ∈ kept, isClass r = true → ∀ path, path ∈ r.relations.paths ↔
        path ≠ "" ∧ ∃ kind, ∃ c ∈ recorded kept kind r, c.filePath = .str path) ∧
      ∀ file f, FirstFile kept file f → ∀ path, path ∈ f.relations.paths ↔
        (∃ c ∈ kept, isClass c = true ∧ c.filePath = .ofText? file ∧ path ∈ c.relations.paths) ∨
          path ≠ "" ∧ ∃ c ∈ kept, isClass c = true ∧ c.filePath = .str path ∧
            ∃ kind, ∃ name ∈ dependsOn kept kind c, f.longname = .str name ∧
              first? kept name = some f := by
  intro kept
  have hkept : (kept.map Record.id).Nodup := nodup_ids_resolveRecords hids
  have hsettled : Settled kept := settled_resolveRecords settings s.records
  have hrecorded : ∀ r path,
      (∃ kind, ∃ c ∈ recorded kept kind r, Record.filledText c.filePath = some path) ↔
        path ≠ "" ∧ ∃ kind, ∃ c ∈ recorded kept kind r, c.filePath = .str path := by
    intro r path
    simp only [filledText_eq_some_iff]
    constructor
    · rintro ⟨kind, c, hc, hpath, hne⟩
      exact ⟨hne, kind, c, hc, hpath⟩
    · rintro ⟨hne, kind, c, hc, hpath⟩
      exact ⟨kind, c, hc, hpath, hne⟩
  have hclass : ∀ r ∈ kept, isClass r = true → ∀ path,
      path ∈ r.relations.paths ↔ path ∈ (linked kept r).paths := by
    intro r hr hclass path
    rw [(hsettled r hr).1]
    exact mem_paths_derived_of_isClass hkept hr hclass
  refine ⟨fun r hr => ?_, fun r hr kind => ?_, fun r hr hc path => ?_, fun file f hf path => ?_⟩
  · rw [(hsettled r hr).1]
    exact nodup_paths_derived kept r
  · rw [(hsettled r hr).1, listed_derived, map_longname_recorded]
  · rw [hclass r hr hc, mem_paths_linked, hrecorded]
  · have hmem : f ∈ kept := (fileRecord?_eq_some (firstFile_iff.mp hf)).1
    rw [(hsettled f hmem).1, mem_paths_derived, mem_paths_linked, hrecorded, or_comm]
    refine or_congr (exists_congr fun c => and_congr_right fun hc => and_congr_right fun hcc => ?_)
      (and_congr_right fun _ => ?_)
    · rw [map_id_fileRecord?_iff hkept hf, hclass c hc hcc]
    · simp only [mem_recorded, leadsTo_iff hkept hmem]
      constructor
      · rintro ⟨kind, c, ⟨hc, hcc, name, hname, hfirst⟩, hpath⟩
        exact ⟨c, hc, hcc, hpath, kind, name, hname, (first?_eq_some hfirst).2, hfirst⟩
      · rintro ⟨c, hc, hcc, hpath, kind, name, hname, _, hfirst⟩
        exact ⟨kind, c, ⟨hc, hcc, name, hname, hfirst⟩, hpath⟩

/-- A file with a class, a class below it and one below that, and a class that extends the file. -/
def shapes : Store :=
  { Store.empty with
    records :=
      [{ id := 1, category := "File", longname := .str "shapes.js", filePath := .str "shapes.js" },
        { id := 2, category := "Class", longname := .str "Shape", filePath := .str "shapes.js" },
        { id := 3, category := "Class", longname := .str "Circle", filePath := .str "circle.js",
          parents := some ["Shape"] },
        { id := 4, category := "Class", longname := .str "Ring", filePath := .str "ring.js",
          parents := some ["Circle"] },
        { id := 5, category := "Class", longname := .str "Sheet", filePath := .str "sheet.js",
          parents := some ["shapes.js"] }] }

/-- The files of all three classes depend on the file. -/
theorem resolve_dependentPaths_shapes :
    let kept := (resolve {} shapes).records
    shapes.ids.Nodup ∧ ∃ f, FirstFile kept (some "shapes.js") f ∧
      f.relations.paths = ["sheet.js", "circle.js", "ring.js"] ∧
      ∀ path, path ∈ f.relations.paths ↔
        (∃ c ∈ kept, isClass c = true ∧ c.filePath = .str "shapes.js" ∧
          path ∈ c.relations.paths) ∨
          path ≠ "" ∧ ∃ c ∈ kept, isClass c = true ∧ c.filePath = .str path ∧
            ∃ kind, ∃ name ∈ dependsOn kept kind c, f.longname = .str name ∧
              first? kept name = some f := by
  intro kept
  have hids : shapes.ids.Nodup := by decide
  have hpaths : (fileRecord? kept (.ofText? (some "shapes.js"))).map (fun f => f.relations.paths) =
      some ["sheet.js", "circle.js", "ring.js"] := by decide +kernel
  obtain ⟨f, hf, hfiles⟩ := Option.map_eq_some_iff.mp hpaths
  have hfirst : FirstFile kept (some "shapes.js") f := firstFile_iff.mpr hf
  exact ⟨hids, f, hfirst, hfiles, (resolve_dependentPaths {} shapes hids).2.2.2 _ f hfirst⟩

/-- A file whose long name a test has before it, and a class that extends that name. -/
def shadowed : Store :=
  { Store.empty with
    records :=
      [{ id := 1, category := "TestFile", longname := .str "a.js", filePath := .str "a.js" },
        { id := 2, category := "File", longname := .str "a.js", filePath := .str "a.js" },
        { id := 3, category := "Class", longname := .str "c.js~C", filePath := .str "c.js",
          parents := some ["a.js"] }] }

/-- The file of the class does not depend on the file: a name stands for its first record. -/
theorem dependentPaths_shadowed :
    let kept := (resolve {} shadowed).records
    ¬ ∀ file f, FirstFile kept file f → ∀ path, path ∈ f.relations.paths ↔
        (∃ c ∈ kept, isClass c = true ∧ c.filePath = .ofText? file ∧ path ∈ c.relations.paths) ∨
          path ≠ "" ∧ ∃ c ∈ kept, isClass c = true ∧ c.filePath = .str path ∧
            ∃ kind, ∃ name ∈ dependsOn kept kind c, f.longname = .str name := by
  intro kept h
  have hfile : (fileRecord? kept (.ofText? (some "a.js"))).map
      (fun f => (f.longname.asText?, f.relations.paths)) = some (some "a.js", []) := by
    decide +kernel
  have hclass : (kept.find? isClass).map
      (fun c => (c.filePath.asText?, dependsOn kept .directSubclass c)) =
        some (some "c.js", ["a.js"]) := by decide +kernel
  obtain ⟨f, hf, hfields⟩ := Option.map_eq_some_iff.mp hfile
  obtain ⟨hname, hpaths⟩ := Prod.mk.inj hfields
  obtain ⟨c, hc, hfields⟩ := Option.map_eq_some_iff.mp hclass
  obtain ⟨hpath, hnames⟩ := Prod.mk.inj hfields
  have hmem : "c.js" ∈ f.relations.paths := by
    refine (h (some "a.js") f (firstFile_iff.mpr hf) "c.js").mpr (Or.inr ⟨by decide, c, ?_⟩)
    exact ⟨List.mem_of_find?_eq_some hc, List.find?_some hc, asText?_eq_some_iff.mp hpath,
      .directSubclass, "a.js", hnames ▸ List.mem_singleton_self _, asText?_eq_some_iff.mp hname⟩
  rw [hpaths] at hmem
  exact List.not_mem_nil hmem

end Resolution

end DocGraph
