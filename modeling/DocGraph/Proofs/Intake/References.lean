import DocGraph.Intake
import DocGraph.Proofs.Interpretation.Reordering
import DocGraph.Proofs.Store.Identities

/-! References to records, over whole sessions of calls.

    A record points to the record of its file, and a diagnostic to the record whose tag it is about. A
    call that is refused stores no record, but it may have made its identity known before: to later
    symbols of the same file, if it was to stand for the file, and in diagnostics. `attempts` lists
    the calls that came so far, refused or not. In these terms references are exact
    (`Attempt.Faithful`): they lead to attempts. So they lead to records exactly if no refused attempt
    has reported a problem, and none was the latest for the file of a symbol that is stored
    (`session_intact_iff`). -/

namespace DocGraph

open Rule

/-! ### What interpretation leaves alone -/

namespace Interpretation

variable {c : Category} {strict : Bool} {s : Scope} {blank : Record} {d : Draft} {name : String}
  {rule : DocRule}

/-- A draft of the record that it began with, for which all its problems are reported. -/
structure Own (blank : Record) (d : Draft) : Prop where
  id : d.record.id = blank.id
  category : d.record.category = blank.category
  moduleId : d.record.moduleId = blank.moduleId
  recordId : ∀ g ∈ d.diagnostics, g.recordId = blank.id

theorem Own.effect (h : Own blank d) (hrule : rule.Disciplined name) (s : Scope) :
    Own blank (rule.effect s d).1 := by
  refine ⟨(hrule.frame s d (f := .id) nofun).trans h.id,
    (hrule.frame s d (f := .category) nofun).trans h.category,
    (hrule.frame s d (f := .moduleId) nofun).trans h.moduleId, ?_⟩
  rw [hrule.diagnostics_eq]
  refine List.forall_mem_append.mpr ⟨h.recordId, List.forall_mem_map.mpr fun _ _ => ?_⟩
  exact h.id

/-- However a run ends, its draft is of the record that it began with. -/
theorem own_runOf (hc : Orderly c.rules) : Own blank (runOf c strict s blank).1.state := by
  have hstart : Own blank ⟨blank, [], []⟩ := ⟨rfl, rfl, rfl, List.forall_mem_nil _⟩
  rcases runOf_keeps (c := c) (P := fun p => Own blank p.state)
    (fun hp _ _ => ⟨hp.id, hp.category, hp.moduleId, hp.recordId⟩)
    (fun hp _ hmem _ _ => hp.effect (hc.disciplined _ hmem) s) hstart with
    ⟨hown, _⟩ | ⟨p, _, _, hp, _, hmem, _, _, hstate, _⟩
  · exact hown
  · rw [hstate]
    exact hp.effect (hc.disciplined _ hmem) s

theorem own_interpretAs (hc : Orderly c.rules) : Own blank (interpretAs c strict s blank).1 := by
  have hown : Own blank (runOf c strict s blank).1.state := own_runOf hc
  rw [interpretAs, ← runOf]
  split
  · next hrun => rwa [hrun] at hown
  · next hrun =>
    rw [hrun] at hown
    exact ⟨hown.id, hown.category, hown.moduleId, hown.recordId⟩

theorem filePath_interpretAs (hc : Orderly c.rules) (h : (interpretAs c strict s blank).2 = none) :
    (interpretAs c strict s blank).1.record.filePath = s.symbol.filePath := by
  have hend := interpretAs_eq_none_iff.mp h
  rw [interpretAs_of_runOf hend]
  exact (filled_runOf hc hend).filePath_eq hc

end Interpretation

/-! ### Sessions -/

namespace Intake

open Interpretation

/-- A call that took an identity and looked its file up. -/
structure Attempt where
  id : Int
  /-- Whether its record is to stand for the whole file. -/
  isModule : Bool
  path : Value
  /-- The problems that it reported. -/
  reported : List Diagnostic
  /-- The record that it stored, unless it was refused. -/
  record : Option Record

/-- What a call comes to, if it gets as far as that. -/
def attempt? [CharacterNames] (files : Files.Tree) (i : Intake) (v : Value) : Option Attempt :=
  match readEntry v with
  | .error _ => none
  | .ok e =>
    if (Category.find? e.category).isSome && e.symbol.filePath.hashable then
      let (after, result) := create files i v
      some ⟨i.store.reserve.2, isModule e.category, e.symbol.filePath,
        after.diagnostics.drop i.diagnostics.length, result.toOption⟩
    else none

/-- Calls one after the other, each made whether or not those before it were refused. -/
def session [CharacterNames] (i : Intake) : List (Files.Tree × Value) → Intake
  | [] => i
  | (files, v) :: calls => session (create files i v).1 calls

/-- The attempts among the calls of a session. -/
def attempts [CharacterNames] (i : Intake) : List (Files.Tree × Value) → List Attempt
  | [] => []
  | (files, v) :: calls => (attempt? files i v).toList ++ attempts (create files i v).1 calls

/-- The latest attempt to store a record for the file at a path. -/
def latest? (attempts : List Attempt) (path : Value) : Option Attempt :=
  (attempts.filter fun a => a.isModule && a.path.same path).getLast?

/-- The latest record of the file at a path. -/
def latestModule? (records : List Record) (path : Value) : Option Record :=
  (records.filter fun r => isModule r.category && r.filePath.same path).getLast?

/-- Every record that points to a file's record points to the latest of its file that was stored
    before it, and every diagnostic is about a record that is stored. -/
structure Intact (i : Intake) : Prop where
  modules : ∀ before r after, i.store.records = before ++ r :: after → ∀ id, r.moduleId = some id →
    ∃ m, latestModule? before r.filePath = some m ∧ m.id = id
  diagnostics : ∀ g ∈ i.diagnostics, ∃ r ∈ i.store.records, r.id = g.recordId

/-- What is stored for an attempt is what was attempted; it points to the latest attempt before it for
    its file. -/
structure Attempt.Stores (before : List Attempt) (a : Attempt) (r : Record) : Prop where
  id : r.id = a.id
  isModule : Intake.isModule r.category = a.isModule
  filePath : r.filePath = a.path
  moduleId : r.moduleId = if a.isModule then none else (latest? before a.path).map Attempt.id

/-- An attempt stores what it should, and reports problems of its own. -/
structure Attempt.Faithful (before : List Attempt) (a : Attempt) : Prop where
  recordId : ∀ g ∈ a.reported, g.recordId = a.id
  stores : ∀ r, a.record = some r → a.Stores before r

/-- The intake is what attempts have made of it. -/
structure Traced (i : Intake) (attempts : List Attempt) : Prop where
  bounded : i.store.Bounded
  below : ∀ a ∈ attempts, a.id < i.store.nextId
  increasing : attempts.Pairwise fun a b => a.id < b.id
  records : i.store.records = attempts.filterMap Attempt.record
  diagnostics : i.diagnostics = attempts.flatMap Attempt.reported
  modules : ∀ path, moduleAt? i.modules path = (latest? attempts path).map Attempt.id
  faithful : ∀ before a after, attempts = before ++ a :: after → a.Faithful before

theorem traced_start (strict : Bool) : Traced (.start strict) [] where
  bounded := Store.bounded_empty
  below := List.forall_mem_nil _
  increasing := .nil
  records := rfl
  diagnostics := rfl
  modules := fun _ => rfl
  faithful := fun before _ _ h => by simp at h

/-- What holds of each item and those before it goes on to hold with one item more. -/
theorem forall_split_concat {α : Type} {P : List α → α → Prop} {items : List α} {last : α}
    (h : ∀ before a after, items = before ++ a :: after → P before a) (hlast : P items last) :
    ∀ before a after, items ++ [last] = before ++ a :: after → P before a := by
  intro before a after hsplit
  rcases List.eq_nil_or_concat after with rfl | ⟨after, b, rfl⟩
  · obtain ⟨rfl, ha⟩ := List.append_inj' hsplit rfl
    obtain rfl : last = a := by simpa using ha
    exact hlast
  · rw [List.concat_eq_append, ← List.cons_append, ← List.append_assoc] at hsplit
    exact h before a after (List.append_inj_left' hsplit rfl)

theorem latest?_concat (as : List Attempt) (a : Attempt) (path : Value) :
    latest? (as ++ [a]) path =
      if a.isModule && a.path.same path then some a else latest? as path := by
  rw [latest?, latest?, List.filter_append, List.filter_singleton]
  cases a.isModule && a.path.same path <;> simp

theorem Traced.concat {i j : Intake} {as : List Attempt} {a : Attempt} (h : Traced i as)
    (hbounded : j.store.Bounded) (hid : a.id = i.store.nextId)
    (hnext : i.store.nextId < j.store.nextId)
    (hrecords : j.store.records = i.store.records ++ a.record.toList)
    (hdiagnostics : j.diagnostics = i.diagnostics ++ a.reported)
    (hmodules : j.modules = if a.isModule then (a.path, a.id) :: i.modules else i.modules)
    (hfaithful : a.Faithful as) : Traced j (as ++ [a]) where
  bounded := hbounded
  below := by
    refine List.forall_mem_append.mpr ⟨fun b hb => Int.lt_trans (h.below b hb) hnext, ?_⟩
    exact List.forall_mem_singleton.mpr (hid ▸ hnext)
  increasing := by
    refine List.pairwise_append.mpr ⟨h.increasing, List.pairwise_singleton .., fun b hb c hc => ?_⟩
    rw [List.mem_singleton.mp hc, hid]
    exact h.below b hb
  records := by
    rw [hrecords, h.records, List.filterMap_append]
    cases hrecord : a.record <;> simp [hrecord]
  diagnostics := by rw [hdiagnostics, h.diagnostics, List.flatMap_append, List.flatMap_singleton]
  modules := by
    intro path
    rw [latest?_concat, hmodules]
    cases hmodule : a.isModule with
    | false => simp [h.modules path]
    | true =>
      by_cases hpath : a.path.same path = true
      · simp [moduleAt?, hpath]
      · have hold := h.modules path
        rw [moduleAt?] at hold
        simp [moduleAt?, hpath, hold]
  faithful := forall_split_concat h.faithful hfaithful

/-! ### One call -/

section Calls

variable {files : Files.Tree} {i : Intake} {c : Category} {e : Entry} {as : List Attempt}

theorem nextId_reserve (hi : i.store.Bounded) : i.store.reserve.1.nextId = i.store.nextId + 1 := by
  rw [Store.reserve_eq hi]

theorem records_reserve (hi : i.store.Bounded) : i.store.reserve.1.records = i.store.records := by
  rw [Store.reserve_eq hi]

/-- Taking an identity alone changes nothing else. -/
theorem Traced.reserve (h : Traced i as) : Traced { i with store := i.store.reserve.1 } as where
  bounded := h.bounded.reserve
  below := by
    intro a ha
    have hbelow := h.below a ha
    rw [nextId_reserve h.bounded]
    omega
  increasing := h.increasing
  records := (records_reserve h.bounded).trans h.records
  diagnostics := h.diagnostics
  modules := h.modules
  faithful := h.faithful

/-- The record that an entry begins with. -/
def fresh (c : Category) (i : Intake) (e : Entry) : Record :=
  { id := i.store.nextId, category := c.name
    moduleId := if isModule c.name then none else moduleAt? i.modules e.symbol.filePath }

variable [names : CharacterNames]

/-- What becomes of it. -/
def draftOf (c : Category) (files : Files.Tree) (i : Intake) (e : Entry) :
    Draft × Option InterpretError :=
  interpretAs c i.strict ⟨e.tags, e.symbol, files, names⟩ (fresh c i e)

/-- A refused entry leaves its identity taken, its file known by it and its problems reported. -/
theorem createIn_of_error (hi : i.store.Bounded) {error : InterpretError}
    (h : (draftOf c files i e).2 = some error) :
    createIn c files i e = ({ i with
      store := i.store.reserve.1
      modules := if isModule c.name then putModule i.modules e.symbol.filePath i.store.nextId
        else i.modules
      diagnostics := i.diagnostics ++ (draftOf c files i e).1.diagnostics
      logs := i.logs ++ (draftOf c files i e).1.logs }, .error (.interpret error)) := by
  have hreserve : i.store.reserve.2 = i.store.nextId := by rw [Store.reserve_eq hi]
  rw [draftOf, fresh] at h
  simp only [createIn, hreserve, h, draftOf, fresh]

/-- An entry that is interpreted well is stored: its identity is new. -/
theorem createIn_of_none (hi : i.store.Bounded) (hc : Orderly c.rules)
    (h : (draftOf c files i e).2 = none) :
    ∃ store logs, i.store.reserve.1.insert (draftOf c files i e).1.record = .ok store ∧
      createIn c files i e = ({ i with
        store := store
        modules := if isModule c.name then putModule i.modules e.symbol.filePath i.store.nextId
          else i.modules
        diagnostics := i.diagnostics ++ (draftOf c files i e).1.diagnostics
        logs := logs }, .ok (draftOf c files i e).1.record) := by
  have hreserve : i.store.reserve.2 = i.store.nextId := by rw [Store.reserve_eq hi]
  have hnew : (draftOf c files i e).1.record.id ∉ i.store.reserve.1.used := by
    have hid : (draftOf c files i e).1.record.id = i.store.nextId := (own_interpretAs hc).id
    rw [hid, Store.reserve_eq hi]
    exact fun hused => Int.lt_irrefl _ (hi _ (List.mem_append_left _ hused))
  obtain ⟨store, hinsert⟩ : ∃ store, i.store.reserve.1.insert (draftOf c files i e).1.record =
      .ok store := ⟨_, Store.insert_eq_ok_iff.mpr ⟨hnew, rfl⟩⟩
  refine ⟨store, (createIn c files i e).1.logs, hinsert, ?_⟩
  rw [draftOf, fresh] at h hinsert
  simp only [createIn, hreserve, h, hinsert, draftOf, fresh]

/-- What is interpreted well for an attempt is what was attempted. -/
theorem Traced.stores (h : Traced i as) (hc : Orderly c.rules)
    (hdraft : (draftOf c files i e).2 = none) {a : Attempt} (hid : a.id = i.store.nextId)
    (hmodule : a.isModule = isModule c.name) (hpath : a.path = e.symbol.filePath) :
    a.Stores as (draftOf c files i e).1.record := by
  have hown : Own (fresh c i e) (draftOf c files i e).1 := own_interpretAs hc
  refine ⟨hown.id.trans hid.symm, ?_, (filePath_interpretAs hc hdraft).trans hpath.symm, ?_⟩
  · rw [hown.category, hmodule]
    rfl
  · rw [hown.moduleId, hmodule, hpath, ← h.modules]
    rfl

/-- The attempt that an entry with a category and a file that can be looked up makes. -/
def attemptIn (c : Category) (files : Files.Tree) (i : Intake) (e : Entry) : Attempt :=
  ⟨i.store.reserve.2, isModule c.name, e.symbol.filePath,
    (createIn c files i e).1.diagnostics.drop i.diagnostics.length,
    (createIn c files i e).2.toOption⟩

theorem Traced.createIn (h : Traced i as) (hc : Orderly c.rules) (files : Files.Tree) (e : Entry) :
    Traced (createIn c files i e).1 (as ++ [attemptIn c files i e]) := by
  have hreserve : i.store.reserve.2 = i.store.nextId := by rw [Store.reserve_eq h.bounded]
  have hown : Own (fresh c i e) (draftOf c files i e).1 := own_interpretAs hc
  have hrecordId : ∀ g ∈ (draftOf c files i e).1.diagnostics, g.recordId = i.store.nextId :=
    hown.recordId
  have hnext := nextId_reserve h.bounded
  cases hdraft : (draftOf c files i e).2 with
  | some error =>
    have hcreate := createIn_of_error h.bounded hdraft
    have hattempt : attemptIn c files i e = ⟨i.store.nextId, isModule c.name, e.symbol.filePath,
        (draftOf c files i e).1.diagnostics, none⟩ := by
      simp [attemptIn, hcreate, hreserve, Except.toOption]
    rw [hattempt, hcreate]
    refine h.concat h.bounded.reserve rfl ?_ ?_ rfl rfl ⟨hrecordId, fun _ hr => ?_⟩
    · simp only [hnext]
      omega
    · simp only [records_reserve h.bounded, Option.toList_none, List.append_nil]
    · simp only [reduceCtorEq] at hr
  | none =>
    obtain ⟨store, logs, hinsert, hcreate⟩ := createIn_of_none h.bounded hc hdraft
    have hattempt : attemptIn c files i e = ⟨i.store.nextId, isModule c.name, e.symbol.filePath,
        (draftOf c files i e).1.diagnostics, some (draftOf c files i e).1.record⟩ := by
      simp [attemptIn, hcreate, hreserve, Except.toOption]
    obtain ⟨_, hstore⟩ := Store.insert_eq_ok_iff.mp hinsert
    rw [hattempt, hcreate]
    refine h.concat (h.bounded.reserve.insert hinsert) rfl ?_ ?_ rfl rfl ⟨hrecordId, fun r hr => ?_⟩
    · simp only [hstore]
      omega
    · simp only [hstore, records_reserve h.bounded, Option.toList_some]
    · rw [← Option.some.inj hr]
      exact h.stores hc hdraft rfl rfl rfl

/-- A call that makes no attempt takes an identity at most. -/
theorem Traced.create (h : Traced i as) (files : Files.Tree) (v : Value) :
    Traced (create files i v).1 (as ++ (attempt? files i v).toList) := by
  cases hread : readEntry v with
  | error error => simpa [Intake.create, attempt?, hread] using h
  | ok e =>
    cases hfind : Category.find? e.category with
    | none => simpa [Intake.create, attempt?, hread, hfind] using h
    | some c =>
      have hname : c.name = e.category := by simpa using List.find?_some hfind
      have hc : Orderly c.rules := Category.orderly_of_mem_all c (List.mem_of_find?_eq_some hfind)
      by_cases hhashable : e.symbol.filePath.hashable = true
      · have hcreate : Intake.create files i v = Intake.createIn c files i e := by
          simp [Intake.create, createAs, hread, hfind, hhashable]
        have hattempt : attempt? files i v = some (attemptIn c files i e) := by
          simp [attempt?, attemptIn, hread, hfind, hhashable, hcreate, hname]
        rw [hcreate, hattempt]
        exact h.createIn hc files e
      · simpa [Intake.create, createAs, attempt?, hread, hfind, hhashable] using h.reserve

end Calls

/-! ### Whole sessions -/

theorem Traced.session [CharacterNames] {i : Intake} {as : List Attempt} (h : Traced i as) :
    ∀ calls : List (Files.Tree × Value), Traced (session i calls) (as ++ attempts i calls)
  | [] => by rwa [Intake.session, attempts, List.append_nil]
  | (files, v) :: calls => by
    rw [Intake.session, attempts, ← List.append_assoc]
    exact (h.create files v).session calls

section Intact

variable {i : Intake} {as : List Attempt}

theorem Traced.faithful_of_mem (h : Traced i as) {a : Attempt} (ha : a ∈ as) :
    ∃ before, a.Faithful before := by
  obtain ⟨before, after, rfl⟩ := List.append_of_mem ha
  exact ⟨before, h.faithful before a after rfl⟩

/-- An identity belongs to one attempt, so a record that has it is what the attempt stored. -/
theorem Traced.record_of_id (h : Traced i as) {a : Attempt} {r : Record} (ha : a ∈ as)
    (hr : r ∈ i.store.records) (hid : r.id = a.id) : a.record = some r := by
  rw [h.records] at hr
  obtain ⟨b, hb, hrecord⟩ := List.mem_filterMap.mp hr
  obtain ⟨before, hfaithful⟩ := h.faithful_of_mem hb
  have hsame : b.id = a.id := (hfaithful.stores r hrecord).id.symm.trans hid
  have hnodup : (as.map Attempt.id).Nodup :=
    List.pairwise_map.mpr (h.increasing.imp fun hlt => Int.ne_of_lt hlt)
  rwa [List.inj_on_of_nodup_map hnodup hb ha hsame] at hrecord

/-- The records for a file are those that the attempts for it stored. -/
theorem filter_records
    (h : ∀ a ∈ as, ∀ r, a.record = some r → isModule r.category = a.isModule ∧ r.filePath = a.path)
    (path : Value) :
    (as.filterMap Attempt.record).filter (fun r => isModule r.category && r.filePath.same path) =
      (as.filter fun a => a.isModule && a.path.same path).filterMap Attempt.record := by
  rw [List.filter_filterMap, List.filterMap_filter]
  refine List.filterMap_congr fun a ha => ?_
  cases hrecord : a.record with
  | none => simp
  | some r =>
    obtain ⟨hmodule, hpath⟩ := h a ha r hrecord
    simp [hmodule, hpath, Option.filter]

/-- If the latest attempt for a file was stored, its record is the latest of the file. -/
theorem latestModule?_of_latest?
    (h : ∀ a ∈ as, ∀ r, a.record = some r → isModule r.category = a.isModule ∧ r.filePath = a.path)
    {path : Value} {m : Attempt} {r : Record} (hm : latest? as path = some m)
    (hr : m.record = some r) : latestModule? (as.filterMap Attempt.record) path = some r := by
  obtain ⟨others, hfilter⟩ := List.getLast?_eq_some_iff.mp hm
  rw [latestModule?, filter_records h, hfilter, List.filterMap_append,
    List.filterMap_cons_some hr, List.filterMap_nil, List.getLast?_concat]

/-- No attempt that was refused has reported a problem. -/
def Quiet (as : List Attempt) : Prop := ∀ a ∈ as, a.record = none → a.reported = []

/-- No attempt that was refused is the latest for the file of a symbol that was stored after it. -/
def Grounded (as : List Attempt) : Prop :=
  ∀ before a after, as = before ++ a :: after → a.isModule = false → a.record ≠ none →
    ∀ m, latest? before a.path = some m → m.record ≠ none

theorem mem_of_latest? {path : Value} {m : Attempt} (h : latest? as path = some m) : m ∈ as :=
  (List.mem_filter.mp (List.mem_of_getLast? h)).1

theorem mem_of_latestModule? {records : List Record} {path : Value} {r : Record}
    (h : latestModule? records path = some r) : r ∈ records :=
  (List.mem_filter.mp (List.mem_of_getLast? h)).1

theorem Traced.quiet (h : Traced i as) (hintact : Intact i) : Quiet as := by
  intro a ha hnone
  refine List.eq_nil_iff_forall_not_mem.mpr fun g hg => ?_
  obtain ⟨_, hfaithful⟩ := h.faithful_of_mem ha
  have hmem : g ∈ i.diagnostics := by
    rw [h.diagnostics]
    exact List.mem_flatMap.mpr ⟨a, ha, hg⟩
  obtain ⟨r, hr, hid⟩ := hintact.diagnostics g hmem
  have hrecord := h.record_of_id ha hr (hid.trans (hfaithful.recordId g hg))
  exact absurd (hnone.symm.trans hrecord) nofun

theorem Traced.grounded (h : Traced i as) (hintact : Intact i) : Grounded as := by
  intro before a after hsplit hmodule hstored m hm hnone
  obtain ⟨r, hr⟩ := Option.ne_none_iff_exists'.mp hstored
  have hmoduleId : r.moduleId = some m.id := by
    rw [((h.faithful before a after hsplit).stores r hr).moduleId, hmodule, hm]
    rfl
  have hrecords : i.store.records =
      before.filterMap Attempt.record ++ r :: after.filterMap Attempt.record := by
    rw [h.records, hsplit, List.filterMap_append, List.filterMap_cons_some hr]
  obtain ⟨q, hq, hid⟩ := hintact.modules _ r _ hrecords m.id hmoduleId
  have hqmem : q ∈ i.store.records := by
    rw [hrecords]
    exact List.mem_append_left _ (mem_of_latestModule? hq)
  have hmmem : m ∈ as := by
    rw [hsplit]
    exact List.mem_append_left _ (mem_of_latest? hm)
  exact absurd (hnone.symm.trans (h.record_of_id hmmem hqmem hid)) nofun

/-- The attempts that stand behind a record and those before it. -/
theorem Traced.exists_split (h : Traced i as) {before after : List Record} {r : Record}
    (hsplit : i.store.records = before ++ r :: after) :
    ∃ front a back, as = front ++ a :: back ∧ a.record = some r ∧
      before = front.filterMap Attempt.record := by
  rw [h.records] at hsplit
  obtain ⟨front, back, rfl, rfl, hback⟩ := List.filterMap_eq_append_iff.mp hsplit
  obtain ⟨refused, a, back, rfl, hrefused, ha, _⟩ := List.filterMap_eq_cons_iff.mp hback
  refine ⟨front ++ refused, a, back, (List.append_assoc ..).symm, ha, ?_⟩
  rw [List.filterMap_append, List.filterMap_eq_nil_iff.mpr hrefused, List.append_nil]

theorem Traced.modules_intact (h : Traced i as) (hgrounded : Grounded as)
    {before after : List Record} {r : Record} (hsplit : i.store.records = before ++ r :: after)
    {id : Int} (hid : r.moduleId = some id) :
    ∃ m, latestModule? before r.filePath = some m ∧ m.id = id := by
  obtain ⟨front, a, back, hattempts, ha, rfl⟩ := h.exists_split hsplit
  have hstores := (h.faithful front a back hattempts).stores r ha
  have hmoduleId := hstores.moduleId.symm.trans hid
  cases hmodule : a.isModule with
  | true => simp [hmodule] at hmoduleId
  | false =>
    rw [hmodule, if_neg Bool.false_ne_true] at hmoduleId
    obtain ⟨m, hm, rfl⟩ := Option.map_eq_some_iff.mp hmoduleId
    have hstored := hgrounded front a back hattempts hmodule (by simp [ha]) m hm
    obtain ⟨q, hq⟩ := Option.ne_none_iff_exists'.mp hstored
    have hfaithful : ∀ b ∈ front, ∃ before, b.Faithful before := fun b hb =>
      h.faithful_of_mem (hattempts ▸ List.mem_append_left _ hb)
    obtain ⟨_, hmfaithful⟩ := hfaithful m (mem_of_latest? hm)
    refine ⟨q, ?_, (hmfaithful.stores q hq).id⟩
    rw [hstores.filePath]
    refine latestModule?_of_latest? (fun b hb r hr => ?_) hm hq
    obtain ⟨_, hbfaithful⟩ := hfaithful b hb
    exact ⟨(hbfaithful.stores r hr).isModule, (hbfaithful.stores r hr).filePath⟩

theorem Traced.diagnostics_intact (h : Traced i as) (hquiet : Quiet as) {g : Diagnostic}
    (hg : g ∈ i.diagnostics) : ∃ r ∈ i.store.records, r.id = g.recordId := by
  rw [h.diagnostics] at hg
  obtain ⟨a, ha, hga⟩ := List.mem_flatMap.mp hg
  have hstored : a.record ≠ none := by
    intro hnone
    rw [hquiet a ha hnone] at hga
    cases hga
  obtain ⟨r, hr⟩ := Option.ne_none_iff_exists'.mp hstored
  obtain ⟨_, hfaithful⟩ := h.faithful_of_mem ha
  refine ⟨r, ?_, (hfaithful.stores r hr).id.trans (hfaithful.recordId g hga).symm⟩
  rw [h.records]
  exact List.mem_filterMap.mpr ⟨a, ha, hr⟩

end Intact

/-- A session stores the records and reports the problems of its attempts, in their order, under
    identities that grow. A record that stands for no file points to the latest attempt before it to
    store one for its file, and a diagnostic is about the attempt that reported it. So all of them
    lead to stored records, and to the latest of the file, exactly if no refused attempt has reported
    a problem and none is the latest for the file of a symbol that was stored after it. -/
theorem session_intact_iff [CharacterNames] (strict : Bool) (calls : List (Files.Tree × Value)) :
    let i := session (.start strict) calls
    let as := attempts (.start strict) calls
    i.store.records = as.filterMap Attempt.record ∧
      i.diagnostics = as.flatMap Attempt.reported ∧
      as.Pairwise (fun a b => a.id < b.id) ∧
      (∀ before a after, as = before ++ a :: after → a.Faithful before) ∧
      (Intact i ↔ Quiet as ∧ Grounded as) := by
  intro i as
  have h : Traced i as := (traced_start strict).session calls
  refine ⟨h.records, h.diagnostics, h.increasing, h.faithful,
    fun hintact => ⟨h.quiet hintact, h.grounded hintact⟩, fun ⟨hquiet, hgrounded⟩ => ?_⟩
  exact ⟨fun _ _ _ hsplit _ hid => h.modules_intact hgrounded hsplit hid,
    fun _ hg => h.diagnostics_intact hquiet hg⟩

/-- A record with none before it has nothing to point to. -/
theorem not_intact_of_lone {i : Intake} {id file : Int}
    (h : i.store.records.map (fun r => (r.id, r.moduleId)) = [(id, some file)]) : ¬ Intact i := by
  intro hintact
  obtain ⟨r, hr, hpoints⟩ := List.map_eq_singleton_iff.mp h
  obtain ⟨m, hm, _⟩ := hintact.modules [] r [] hr file (congrArg Prod.snd hpoints)
  exact absurd (mem_of_latestModule? hm) List.not_mem_nil

/-- A file that is refused because its decorators are no list, a class of the file, and a class with a
    faulty tag that is refused because its superclass is to be read from a file that is not there. -/
def refusals : List (Files.Tree × Value) :=
  let entry (category : String) (context : List (String × Value)) (tags : List Value) : Value :=
    .object [("category", .str category), ("context", .object context), ("tags", .list tags)]
  let faulty : Value := .object [("tag_name", .str "@param"), ("tag_value", .str "\x7bnumber\x7d")]
  let calls := [
    entry "File" [("file_path", .str "a.js"), ("decorators", .null)] [],
    entry "Class" [("file_path", .str "a.js"), ("name", .str "A")] [],
    entry "Class" [("file_path", .str "a.js"), ("name", .str "B"),
      ("superclass_location", .list [.int 1, .int 0, .int 4])] [faulty]]
  calls.map fun v => (⟨[], []⟩, v)

/-- The class that is stored points to a record that was not, and so does the diagnostic. -/
theorem not_intact_refusals :
    (session (.start false) refusals).store.records.map (fun r => (r.id, r.moduleId)) =
        [(1, some 0)] ∧
      (session (.start false) refusals).diagnostics.map Diagnostic.recordId = [2] ∧
      ¬ Intact (session (.start false) refusals) := by
  have hrecords : (session (.start false) refusals).store.records.map (fun r => (r.id, r.moduleId)) =
      [(1, some 0)] := by decide +kernel
  have hdiagnostics : (session (.start false) refusals).diagnostics.map Diagnostic.recordId = [2] := by
    decide +kernel
  exact ⟨hrecords, hdiagnostics, not_intact_of_lone hrecords⟩

end Intake

end DocGraph
