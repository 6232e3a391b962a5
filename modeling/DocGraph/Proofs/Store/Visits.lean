import DocGraph.Proofs.Store.Identities

/-! The visits of an update.

    An update goes from record to record: it sets attributes, or asks a callback, and goes on unless
    that fails. `Visits` sets beside a run the records it goes to and the stores it finds there. One
    visit changes no record but its own (`get?_visit_of_ne`), so what is met on the way is what was
    there at the beginning, and what is not visited stays as it was (`Visits.get?_of_ne`).
    `run_visits` says this of every update, whether it comes to its end or not. -/

namespace DocGraph

namespace Record

/-- Setting a field does not change the identity. -/
theorem id_assign {r r' : Record} {name : String} {v : Value} (h : r.assign name v = some r') :
    r'.id = r.id := by
  rw [assign.eq_def] at h
  split at h
  -- a field takes any value, or what a reading of the value gives, or one kind of value only
  all_goals
    first
    | obtain rfl := Option.some.inj h
      rfl
    | obtain ⟨_, -, hset⟩ := Option.bind_eq_some_iff.mp h
      obtain rfl := Option.some.inj hset
      rfl
    | split at h
      · obtain rfl := Option.some.inj h
        rfl
      · cases h

theorem id_set {r r' : Record} {name : String} {v : Value} (h : r.set name v = .ok r') :
    r'.id = r.id := by
  rw [set] at h
  split at h
  · cases h
  · split at h
    · next hassign =>
      have hid := id_assign hassign
      rwa [← Except.ok.inj h]
    · obtain rfl := Except.ok.inj h
      simp only [setBeside]
      split
      · rfl
      · cases hassign : r.assign name .null with
        | none => rfl
        | some emptied => exact id_assign hassign

theorem id_setAll (r : Record) (fields : Named Value) : (r.setAll fields).1.id = r.id := by
  fun_induction setAll r fields with
  | case1 r => rfl
  | case2 r name v more e hset => rfl
  | case3 r name v more r' hset ih => exact ih.trans (id_set hset)

end Record

namespace Store

/-! ### One visit -/

/-- What an update does with a record: it sets attributes, or asks a callback, which works on the
    stored record or on a copy. -/
inductive Updater where
  | attributes (fields : Named Value)
  | callback (f : Callback) (inPlace : Bool)

namespace Updater

/-- Updates the records that meet one of the predicates. -/
def run (u : Updater) (s : Store) (ps : List Predicate) : Store × Except UpdateError Nat :=
  match u with
  | attributes fields => s.update ps fields
  | callback f inPlace => s.updateWith ps f inPlace

/-- Updates the records of some identities in order. -/
def runEach (u : Updater) (s : Store) (ids : List Int) : Store × Except UpdateError Nat :=
  match u with
  | attributes fields => updateEach fields s ids
  | callback f inPlace => updateEachWith f inPlace s ids

/-- What becomes of the store at one record, and whether the record counts as changed. -/
def visit (u : Updater) (s : Store) (r : Record) : Store × Except UpdateError Nat :=
  match u with
  | attributes fields => match r.setAll fields with
    | (r', some e) => (s.replace r', .error (.set e))
    | (r', none) => (s.replace r', .ok 1)
  | callback f inPlace => settle inPlace s r (ask f inPlace s r).1 (ask f inPlace s r).2

theorem run_eq (u : Updater) (s : Store) (ps : List Predicate) :
    u.run s ps = u.runEach s ((s.find ps).map Record.id) := by
  cases u <;> rfl

theorem runEach_nil (u : Updater) (s : Store) : u.runEach s [] = (s, .ok 0) := by
  cases u <;> rfl

variable {u : Updater} {s t : Store} {r : Record}

/-- A visit that fails ends the update. -/
theorem runEach_of_error {e : UpdateError} (hget : s.get? r.id = some r)
    (hvisit : u.visit s r = (t, .error e)) (ids : List Int) :
    u.runEach s (r.id :: ids) = (t, .error e) := by
  cases u with
  | attributes fields =>
    rw [visit] at hvisit
    rcases hset : r.setAll fields with ⟨r', _ | e'⟩
    · simp [hset] at hvisit
    · simpa only [runEach, updateEach, hget, hset] using hvisit
  | callback f inPlace =>
    rw [visit] at hvisit
    simp only [runEach, updateEachWith, hget, hvisit]

/-- Behind a visit that does not fail the update goes on, from the store that the visit leaves. -/
theorem runEach_of_ok {n : Nat} (hget : s.get? r.id = some r)
    (hvisit : u.visit s r = (t, .ok n)) (ids : List Int) :
    u.runEach s (r.id :: ids) = ((u.runEach t ids).1, (u.runEach t ids).2.map (n + ·)) := by
  cases u with
  | attributes fields =>
    rw [visit] at hvisit
    rcases hset : r.setAll fields with ⟨r', _ | e'⟩
    · simp only [hset, Prod.mk.injEq, Except.ok.injEq] at hvisit
      obtain ⟨rfl, rfl⟩ := hvisit
      simp only [runEach, updateEach, hget, hset]
      rcases updateEach fields (s.replace r') ids with ⟨t, e | m⟩
      · rfl
      · simp [Except.map, Nat.add_comm]
    · simp [hset] at hvisit
  | callback f inPlace =>
    rw [visit] at hvisit
    simp only [runEach, updateEachWith, hget, hvisit]
    rcases updateEachWith f inPlace t ids with ⟨t', e | m⟩ <;> rfl

/-! ### What a visit changes -/

theorem get?_replace_of_ne {id : Int} (h : r.id ≠ id) : (s.replace r).get? id = s.get? id := by
  have hfits : ((fun q : Record => decide (q.id = id)) ∘ fun q => if q.id = r.id then r else q) =
      fun q => decide (q.id = id) := by
    funext q
    by_cases hq : q.id = r.id
    · simp [hq, h]
    · simp [hq]
  rw [get?, replace, List.find?_map, hfits, get?]
  cases hfind : s.records.find? fun q => decide (q.id = id) with
  | none => rfl
  | some q =>
    have hq : q.id = id := by simpa using List.find?_some hfind
    rw [Option.map_some, if_neg (hq ▸ Ne.symm h)]

theorem exists_replace_settle (inPlace : Bool) (s : Store) (r left : Record)
    (reply : Except Record.SetError Reply) :
    (settle inPlace s r left reply).1 = s ∨
      ∃ r', r'.id = r.id ∧ (settle inPlace s r left reply).1 = s.replace r' := by
  have htouched : (if inPlace then { left with id := r.id } else r).id = r.id := by
    cases inPlace <;> rfl
  cases reply with
  | error e =>
    cases inPlace with
    | true => exact Or.inr ⟨{ left with id := r.id }, rfl, rfl⟩
    | false => exact Or.inl rfl
  | ok reply =>
    right
    cases reply with
    | nothing | foreign => exact ⟨_, htouched, rfl⟩
    | given =>
      by_cases hid : left.id = r.id
      · refine ⟨if inPlace then left else commit r left, ?_, by simp only [settle, if_pos hid]⟩
        cases inPlace with
        | true => exact hid
        | false => rfl
      · exact ⟨_, htouched, by simp only [settle, if_neg hid]⟩
    | other o =>
      by_cases hid : o.id = r.id
      · exact ⟨commit _ o, htouched, by simp only [settle, if_pos hid]⟩
      · exact ⟨_, htouched, by simp only [settle, if_neg hid]⟩

/-- A visit puts at most one record in the place of the one it goes to. -/
theorem exists_replace_visit (u : Updater) (s : Store) (r : Record) :
    (u.visit s r).1 = s ∨ ∃ r', r'.id = r.id ∧ (u.visit s r).1 = s.replace r' := by
  cases u with
  | attributes fields =>
    have hid := r.id_setAll fields
    rcases hset : r.setAll fields with ⟨r', _ | e⟩ <;> rw [hset] at hid <;>
      exact Or.inr ⟨r', hid, by simp only [visit, hset]⟩
  | callback f inPlace => exact exists_replace_settle ..

theorem updated_visit (u : Updater) (s : Store) (r : Record) : Updated s (u.visit s r).1 := by
  rcases exists_replace_visit u s r with hsame | ⟨r', -, hreplace⟩
  · rw [hsame]
    exact .refl s
  · rw [hreplace]
    exact updated_replace s r'

/-- A visit changes no record but the one it goes to. -/
theorem get?_visit_of_ne (u : Updater) (s : Store) {r : Record} {id : Int} (h : r.id ≠ id) :
    (u.visit s r).1.get? id = s.get? id := by
  rcases exists_replace_visit u s r with hsame | ⟨r', hid, hreplace⟩
  · rw [hsame]
  · rw [hreplace, get?_replace_of_ne (hid ▸ h)]

/-- Whether a callback returned a record. -/
def returnsRecord : Except Record.SetError Reply → Bool
  | .ok .given => true
  | .ok (.other _) => true
  | _ => false

/-- Whether a record counts as changed when an update goes to it. -/
def counts (u : Updater) (s : Store) (r : Record) : Bool :=
  match u with
  | attributes _ => true
  | callback f inPlace => returnsRecord (ask f inPlace s r).2

theorem eq_of_settle {inPlace : Bool} {left : Record} {reply : Except Record.SetError Reply}
    {n : Nat} (h : settle inPlace s r left reply = (t, .ok n)) :
    n = if returnsRecord reply then 1 else 0 := by
  cases reply with
  | error e => cases h
  | ok reply =>
    cases reply with
    | nothing =>
      obtain ⟨-, h⟩ := Prod.mk.inj h
      exact (Except.ok.inj h).symm
    | foreign => cases h
    | given | other =>
      simp only [settle] at h
      split at h
      · obtain ⟨-, h⟩ := Prod.mk.inj h
        exact (Except.ok.inj h).symm
      · cases h

theorem eq_of_visit {n : Nat} (h : u.visit s r = (t, .ok n)) :
    n = if u.counts s r then 1 else 0 := by
  cases u with
  | attributes fields =>
    rw [visit] at h
    rcases hset : r.setAll fields with ⟨r', _ | e⟩
    · simp only [hset, Prod.mk.injEq, Except.ok.injEq] at h
      exact h.2.symm
    · simp [hset] at h
  | callback f inPlace => exact eq_of_settle h

end Updater

/-! ### All visits -/

/-- One visit: the record it goes to, and the store as it then is. -/
structure Visit where
  store : Store
  record : Record

/-- The visits of an update from a store on, the store it leaves and its outcome. Each goes to a
    record that is stored; all but the last are without failure, and one that fails is the last. -/
inductive Visits (u : Updater) : Store → List Visit → Store → Except UpdateError Nat → Prop
  | done (s : Store) : Visits u s [] s (.ok 0)
  | next {s s' t : Store} {r : Record} {n : Nat} {visits : List Visit}
      {outcome : Except UpdateError Nat} (hstored : s.get? r.id = some r)
      (hvisit : u.visit s r = (s', .ok n)) (hrest : Visits u s' visits t outcome) :
      Visits u s (⟨s, r⟩ :: visits) t (outcome.map (n + ·))
  | stop {s t : Store} {r : Record} {e : UpdateError} (hstored : s.get? r.id = some r)
      (hvisit : u.visit s r = (t, .error e)) : Visits u s [⟨s, r⟩] t (.error e)

/-- How many records count as changed when an update comes to its end: all of them when it sets
    attributes, else those for which the callback returned a record. -/
def Updater.total (u : Updater) (visits : List Visit) : Nat :=
  match u with
  | attributes _ => visits.length
  | callback f inPlace =>
    visits.countP fun v => returnsRecord (ask f inPlace v.store v.record).2

namespace Visits

variable {u : Updater} {s t : Store} {visits : List Visit} {outcome : Except UpdateError Nat}

theorem updated (h : Visits u s visits t outcome) : Updated s t := by
  induction h with
  | done s => exact .refl s
  | @next s s' _ r _ _ _ _ hvisit _ ih =>
    have hfirst := u.updated_visit s r
    rw [hvisit] at hfirst
    exact hfirst.trans ih
  | @stop s _ r _ _ hvisit =>
    have hfirst := u.updated_visit s r
    rwa [hvisit] at hfirst

/-- What is not visited stays as it was. -/
theorem get?_of_ne {id : Int} (h : Visits u s visits t outcome)
    (hne : ∀ v ∈ visits, v.record.id ≠ id) : t.get? id = s.get? id := by
  induction h with
  | done s => rfl
  | @next s s' _ r _ _ _ _ hvisit _ ih =>
    rw [List.forall_mem_cons] at hne
    have hfirst := u.get?_visit_of_ne s hne.1
    rw [hvisit] at hfirst
    exact (ih hne.2).trans hfirst
  | @stop s _ r _ _ hvisit =>
    have hfirst := u.get?_visit_of_ne s (hne _ List.mem_cons_self)
    rwa [hvisit] at hfirst

theorem countP_counts {n : Nat} (h : Visits u s visits t (.ok n)) :
    n = visits.countP fun v => u.counts v.store v.record := by
  generalize houtcome : Except.ok n = outcome at h
  induction h generalizing n with
  | done s => exact Except.ok.inj houtcome
  | @next s s' t r m visits outcome _ hvisit _ ih =>
    cases outcome with
    | error e => cases houtcome
    | ok k =>
      have hn : n = m + k := Except.ok.inj houtcome
      rw [hn, ih rfl, Updater.eq_of_visit hvisit, List.countP_cons, Nat.add_comm]
  | stop => cases houtcome

theorem count {n : Nat} (h : Visits u s visits t (.ok n)) : n = u.total visits := by
  rw [h.countP_counts]
  cases u with
  | attributes fields => exact congrFun List.countP_true visits
  | callback f inPlace => rfl

/-- An update fails at a visit. -/
theorem ne_nil {e : UpdateError} (h : Visits u s visits t (.error e)) : visits ≠ [] := by
  generalize houtcome : Except.error e = outcome at h
  cases h with
  | done => cases houtcome
  | next | stop => exact List.cons_ne_nil _ _

end Visits

/-- An update goes to the records that are asked for, one after the other, and leaves none out but
    behind a visit that fails. -/
theorem exists_visits (u : Updater) : ∀ (matched : List Record) (s : Store),
    (∀ r ∈ matched, s.get? r.id = some r) → (matched.map Record.id).Nodup →
    ∃ visits after, matched = visits.map Visit.record ++ after ∧
      Visits u s visits (u.runEach s (matched.map Record.id)).1
        (u.runEach s (matched.map Record.id)).2 ∧
      ∀ n, (u.runEach s (matched.map Record.id)).2 = .ok n → after = []
  | [], s, _, _ => by
    rw [List.map_nil, u.runEach_nil]
    exact ⟨[], [], rfl, .done s, fun _ _ => rfl⟩
  | r :: matched, s, hstored, hnodup => by
    rw [List.map_cons, List.nodup_cons] at hnodup
    rw [List.forall_mem_cons] at hstored
    rw [List.map_cons]
    rcases hvisit : u.visit s r with ⟨t, e | n⟩
    · rw [Updater.runEach_of_error hstored.1 hvisit]
      exact ⟨[⟨s, r⟩], matched, rfl, .stop hstored.1 hvisit, fun _ h => by cases h⟩
    · -- the records that are still to come have not been changed by this visit
      have hlater : ∀ q ∈ matched, t.get? q.id = some q := by
        intro q hq
        have hne : r.id ≠ q.id := fun heq => hnodup.1 (heq ▸ List.mem_map_of_mem hq)
        have hkept := u.get?_visit_of_ne s hne
        rw [hvisit] at hkept
        exact hkept.trans (hstored.2 q hq)
      obtain ⟨visits, after, hsplit, hvisits, hafter⟩ := exists_visits u matched t hlater hnodup.2
      rw [Updater.runEach_of_ok hstored.1 hvisit]
      refine ⟨⟨s, r⟩ :: visits, after, by rw [hsplit]; rfl, .next hstored.1 hvisit hvisits, ?_⟩
      intro m hm
      cases hrest : (u.runEach t (matched.map Record.id)).2 with
      | error e =>
        rw [hrest] at hm
        cases hm
      | ok k => exact hafter k hrest

/-- An update visits records that met its predicates before it began, as they then were, in their
    order and each once. Whether it comes to its end or not, the identities of the store and their
    order are the same as before, and so is every record that did not meet the predicates. At its end
    it has visited all records that met them, and its number is that of the records that count as
    changed. If it fails, then at the last of its visits, and the records that it would have visited
    behind that one are as they were. -/
theorem run_visits (u : Updater) (s : Store) (ps : List Predicate) (hs : s.ids.Nodup) :
    ∃ visits after, s.find ps = visits.map Visit.record ++ after ∧
      Visits u s visits (u.run s ps).1 (u.run s ps).2 ∧
      (visits.map Visit.record).Nodup ∧
      Updated s (u.run s ps).1 ∧
      (∀ r ∈ s.records, r.fitsAny ps = false → (u.run s ps).1.get? r.id = some r) ∧
      (∀ n, (u.run s ps).2 = .ok n → after = [] ∧ n = u.total visits) ∧
      ∀ e, (u.run s ps).2 = .error e → visits ≠ [] ∧
        ∀ r ∈ after, (u.run s ps).1.get? r.id = some r := by
  have hstored : ∀ r ∈ s.find ps, s.get? r.id = some r := fun r hr =>
    (get?_eq_some_iff hs).mpr ⟨(List.mem_filter.mp hr).1, rfl⟩
  have hids : ((s.find ps).map Record.id).Nodup := hs.sublist (List.filter_sublist.map _)
  obtain ⟨visits, after, hsplit, hvisits, hafter⟩ := exists_visits u (s.find ps) s hstored hids
  rw [← u.run_eq] at hvisits hafter
  have hvisited : ∀ v ∈ visits, v.record ∈ s.find ps := fun v hv => by
    rw [hsplit]
    exact List.mem_append_left _ (List.mem_map_of_mem hv)
  refine ⟨visits, after, hsplit, hvisits, ?_, hvisits.updated, fun r hr hnot => ?_, fun n hn => ?_,
    fun e he => ⟨?_, fun r hr => ?_⟩⟩
  · have hnodup : (s.find ps).Nodup := hids.of_map
    rw [hsplit] at hnodup
    exact hnodup.of_append_left
  · rw [hvisits.get?_of_ne, get?_eq_some_iff hs]
    · exact ⟨hr, rfl⟩
    · -- a visited record with the same identity would be this one, and would meet the predicates
      intro v hv heq
      obtain ⟨hmem, hfits⟩ := List.mem_filter.mp (hvisited v hv)
      rw [List.inj_on_of_nodup_map hs hmem hr heq, hnot] at hfits
      cases hfits
  · rw [hn] at hvisits
    exact ⟨hafter n hn, hvisits.count⟩
  · rw [he] at hvisits
    exact hvisits.ne_nil
  · have hmem : r ∈ s.find ps := by
      rw [hsplit]
      exact List.mem_append_right _ hr
    rw [hvisits.get?_of_ne]
    · exact hstored r hmem
    · intro v hv heq
      rw [hsplit, List.map_append] at hids
      exact (List.disjoint_of_nodup_append hids) (heq ▸ List.mem_map_of_mem
        (List.mem_map_of_mem hv)) (List.mem_map_of_mem hr)

/-- Two hidden symbols around a shown one. -/
def threeSymbols : Store :=
  { empty with
    records := [{ id := 4, category := "Class", exported := .bool false },
      { id := 2, category := "Function", exported := .bool true },
      { id := 7, category := "Variable", exported := .bool false }] }

/-- Shows a symbol, and then tries to change its identity. -/
def renumbering : Updater := .attributes [("export", .bool true), ("id", .int 0)]

/-- An update that changes what it looks for and fails at the first of two records. -/
theorem run_visits_renumbering :
    let hidden : List Predicate := [[("export", .equal (.bool false))]]
    threeSymbols.ids.Nodup ∧
      (renumbering.run threeSymbols hidden).2 = .error (.set .immutableId) ∧
      ∃ visits after, threeSymbols.find hidden = visits.map Visit.record ++ after ∧
        Visits renumbering threeSymbols visits (renumbering.run threeSymbols hidden).1
          (.error (.set .immutableId)) ∧
        visits ≠ [] ∧ ∀ r ∈ after, (renumbering.run threeSymbols hidden).1.get? r.id = some r := by
  intro hidden
  have hids : threeSymbols.ids.Nodup := by decide
  have herror : (renumbering.run threeSymbols hidden).2 = .error (.set .immutableId) := by
    decide +kernel
  obtain ⟨visits, after, hsplit, hvisits, -, -, -, -, hstop⟩ :=
    run_visits renumbering threeSymbols hidden hids
  rw [herror] at hvisits
  exact ⟨hids, herror, visits, after, hsplit, hvisits, hstop _ herror⟩

end Store

end DocGraph
