import DocGraph.Proofs.Store.Sharing
import DocGraph.Proofs.Store.Visits

/-! Updating in place.

    A callback works on a copy of each record, which is then committed to the stored one, or on the
    stored record itself. The second way saves the copies, and trusts the callback to leave a record
    as it was unless it returns it. Both ways come to the same end (`updateWith_inPlace`) if three
    more things hold. No attribute is taken away from a record that is returned, since a commit
    would keep it (`Faithful`). The callback does the same whether or not the store shows its own
    changes to it, as stored records do and copies do not (`FaithfulWithin`). And it changes nothing
    but its record, as it would by adding to a list that another record holds too (`Sharing`).
    `updateWith_inPlace_differs` shows for each of the three what happens without it. -/

namespace DocGraph

namespace Record

/-! ### Having attributes -/

/-- A record that still has every attribute of another, with whatever value. -/
def Retains (left r : Record) : Prop := r.attributeNames ⊆ left.attributeNames

/-- All records have the same fields, so only what lies beyond them can be missing. -/
theorem retains_iff {left r : Record} :
    left.Retains r ↔ ∀ name ∈ r.extra.names, name ∈ r.fields.names ∨ name ∈ left.extra.names := by
  have hnames : left.fields.names = r.fields.names := rfl
  rw [Retains, attributeNames, attributeNames, hnames, List.append_subset]
  simp only [List.subset_append_left, true_and]
  exact forall₂_congr fun name _ => List.mem_append

theorem Retains.refl (r : Record) : r.Retains r := List.Subset.refl _

theorem Retains.trans {r₁ r₂ r₃ : Record} (h : r₂.Retains r₁) (h' : r₃.Retains r₂) :
    r₃.Retains r₁ := List.Subset.trans h h'

theorem mem_fields_of_assign {r r' : Record} {name : String} {v : Value}
    (h : r.assign name v = some r') : name ∈ r.fields.names := by
  have hrelation : ∀ {s s' : Relations}, assignRelation s name v = some s' →
      name ∈ r.fields.names := by
    intro s s' h
    rw [assignRelation.eq_def] at h
    split at h
    all_goals first | exact List.contains_iff_mem.mp rfl | cases h
  rw [assign.eq_def] at h
  split at h
  all_goals
    first
    | exact List.contains_iff_mem.mp rfl
    | obtain ⟨_, hset, -⟩ := Option.bind_eq_some_iff.mp h
      exact hrelation hset

/-- Setting an attribute takes none away. -/
theorem retains_set {r r' : Record} {name : String} {v : Value} (h : r.set name v = .ok r') :
    r'.Retains r := by
  rw [retains_iff]
  intro other hother
  rw [set] at h
  split at h
  · cases h
  · split at h
    · next hassign =>
      obtain rfl := Except.ok.inj h
      by_cases hname : other = name
      · exact Or.inl (hname ▸ mem_fields_of_assign hassign)
      · obtain ⟨e, he, rfl⟩ := List.mem_map.mp hother
        refine Or.inr (List.mem_map_of_mem (List.mem_filter.mpr ⟨he, ?_⟩))
        simpa using hname
    · obtain rfl := Except.ok.inj h
      exact Or.inr (Named.mem_names_put hother)

theorem retains_setAll (r : Record) (fields : Named Value) : (r.setAll fields).1.Retains r := by
  fun_induction setAll r fields with
  | case1 r => exact .refl r
  | case2 r name v more e hset => exact .refl r
  | case3 r name v more r' hset ih => exact (retains_set hset).trans ih

end Record

namespace Store

/-! ### One record -/

/-- A record that takes over another becomes that one exactly if the other has its identity and all
    of its attributes. -/
theorem commit_eq_iff {r left : Record} :
    commit r left = left ↔ left.id = r.id ∧ left.Retains r := by
  have hkept : (r.extra.filter fun e =>
      !r.fields.names.contains e.1 && !left.extra.names.contains e.1) = [] ↔ left.Retains r := by
    rw [List.filter_eq_nil_iff, Record.retains_iff]
    simp only [Named.names, List.forall_mem_map]
    refine forall₂_congr fun e _ => ?_
    simp only [Bool.and_eq_true, Bool.not_eq_true', List.contains_eq_mem, decide_eq_false_iff_not]
    tauto
  constructor
  · intro h
    exact ⟨(congrArg Record.id h).symm,
      hkept.mp (List.append_left_eq_self.mp (congrArg Record.extra h))⟩
  · rintro ⟨hid, hretains⟩
    rw [commit, hkept.mpr hretains, ← hid, List.nil_append]

/-- What a callback may do with a record: return it, with the identity and the attributes that it
    had, or return nothing and leave it as it was. -/
inductive Faithful (r : Record) : Record × Except Record.SetError Reply → Prop
  | returned {left : Record} (hid : left.id = r.id) (hretains : left.Retains r) :
      Faithful r (left, .ok .given)
  | declined : Faithful r (r, .ok .nothing)

theorem faithful_setAll {r : Record} {fields : Named Value} :
    Faithful r ((r.setAll fields).1, .ok .given) :=
  .returned (r.id_setAll fields) (r.retains_setAll fields)

/-- In place or not, what a faithful callback leaves takes the place of the record. -/
theorem settle_of_faithful {s : Store} {r : Record} {answer : Record × Except Record.SetError Reply}
    (h : Faithful r answer) (inPlace : Bool) :
    settle inPlace s r answer.1 answer.2 =
      (s.replace answer.1, .ok (if Updater.returnsRecord answer.2 then 1 else 0)) := by
  cases h with
  | @returned left hid hretains =>
    rw [settle, if_pos hid, commit_eq_iff.mpr ⟨hid, hretains⟩, ite_self]
    rfl
  | declined =>
    simp only [settle, ite_self]
    rfl

/-! ### What a callback sees -/

variable {s : Store} {r : Record} {f : Callback}

theorem replace_self (hs : s.ids.Nodup) (hr : r ∈ s.records) : s.replace r = s := by
  have hsame : s.records.map (fun q => if q.id = r.id then r else q) = s.records := by
    refine (List.map_congr_left fun q hq => ?_).trans (List.map_id _)
    split
    · next hid => exact (List.inj_on_of_nodup_map hs hq hr hid).symm
    · rfl
  rw [replace, hsame]

/-- A callback that looks at the store before it changes its record, and not any more then, does the
    same in place. -/
theorem ask_of_looks_first (hs : s.ids.Nodup) (hr : r ∈ s.records)
    (hf : ∀ view, f view r = f (fun _ => view r) r) : ask f true s r = ask f false s r := by
  have hview : s.seen true r r = s := replace_self hs hr
  rw [ask, hf, hview]
  rfl

/-! ### All records -/

/-- At the records of some identities, in every store that updates of `s` can lead to, a callback is
    faithful and does the same whether or not the store shows what it does. -/
def FaithfulWithin (f : Callback) (s : Store) (ids : List Int) : Prop :=
  ∀ t, Updated s t → ∀ r ∈ t.records, r.id ∈ ids →
    ask f true t r = ask f false t r ∧ Faithful r (ask f false t r)

theorem FaithfulWithin.rest {id : Int} {ids : List Int} {t : Store}
    (h : FaithfulWithin f s (id :: ids)) (ht : Updated s t) : FaithfulWithin f t ids :=
  fun u hu r hr hid => h u (ht.trans hu) r hr (List.mem_cons_of_mem _ hid)

theorem updateEachWith_inPlace : ∀ (ids : List Int) (s : Store), FaithfulWithin f s ids →
    ∃ t n, updateEachWith f true s ids = (t, .ok n) ∧ updateEachWith f false s ids = (t, .ok n)
  | [], s, _ => ⟨s, 0, rfl, rfl⟩
  | id :: ids, s, hf => by
    cases hget : s.get? id with
    | none =>
      simp only [updateEachWith, hget]
      exact updateEachWith_inPlace ids s (hf.rest (.refl s))
    | some r =>
      have hid : r.id = id := by simpa using List.find?_some hget
      obtain ⟨hsame, hfaithful⟩ :=
        hf s (.refl s) r (List.mem_of_find?_eq_some hget) (hid ▸ List.mem_cons_self)
      -- both ways go on from the store in which the record is as the callback left it
      obtain ⟨t, n, hstored, hcopied⟩ := updateEachWith_inPlace ids
        (s.replace (ask f false s r).1) (hf.rest (updated_replace s (ask f false s r).1))
      simp only [updateEachWith, hget, hsame, settle_of_faithful hfaithful, hstored, hcopied]
      exact ⟨_, _, rfl, rfl⟩

/-- An update by a callback that is faithful wherever it can be asked comes to its end, and leaves
    the same store and counts the same records whether the callback works on the stored records or
    on copies. So it does where records can hold lists in common, as long as none do and the
    callback gives no list to several of them. -/
theorem updateWith_inPlace (s : Store) (ps : List Predicate) (f : Callback)
    (hf : FaithfulWithin f s ((s.find ps).map Record.id)) :
    ∃ t n, s.updateWith ps f true = (t, .ok n) ∧ s.updateWith ps f false = (t, .ok n) ∧
      ∀ (sh : Sharing) (a : Amendment), a.callback = f → sh.holders = [] →
        (∀ e ∈ a.set, e.2.members? = none) →
        ∀ inPlace, sh.amend s ps a inPlace = ((sh, t), .ok n) := by
  obtain ⟨t, n, hstored, hcopied⟩ : ∃ t n, s.updateWith ps f true = (t, .ok n) ∧
      s.updateWith ps f false = (t, .ok n) := updateEachWith_inPlace _ s hf
  refine ⟨t, n, hstored, hcopied, ?_⟩
  rintro sh a rfl hunshared hset inPlace
  rw [Sharing.amend_of_unshared hunshared s ps hset]
  cases inPlace with
  | true => rw [hstored]
  | false => rw [hcopied]

/-- The number of symbols that are shown. -/
def countShown (s : Store) : Value := .int (s.find [[("export", .equal (.bool true))]]).length

/-- Shows a symbol, and notes on it how many were shown before. Functions are left alone. -/
def numbering : Callback := fun view r =>
  if r.category = "Function" then (r, .ok .nothing)
  else ((r.setAll [("line_number", countShown (view r)), ("export", .bool true)]).1, .ok .given)

theorem faithfulWithin_numbering {s : Store} (hs : s.ids.Nodup) (ids : List Int) :
    FaithfulWithin numbering s ids := by
  intro t ht r hr _
  refine ⟨ask_of_looks_first (ht.ids ▸ hs) hr fun _ => rfl, ?_⟩
  rw [ask, numbering]
  split
  · exact .declined
  · exact faithful_setAll

/-- Shows each record and returns it. -/
def showing : Amendment := ⟨[("export", .bool true)], [], fun _ _ => .given⟩

theorem faithfulWithin_showing (s : Store) (ids : List Int) :
    FaithfulWithin showing.callback s ids := by
  intro t _ r _ _
  have hset : ask showing.callback false t r = ((r.setAll showing.set).1, .ok .given) := rfl
  exact ⟨rfl, hset ▸ faithful_setAll⟩

/-- Of two symbols that are numbered, the second one sees that the first one is shown by then. And
    of records that were given no lists, all are shown in place or not. -/
theorem updateWith_inPlace_numbering :
    (FaithfulWithin numbering threeSymbols ((threeSymbols.find []).map Record.id) ∧
      ∃ t n, threeSymbols.updateWith [] numbering true = (t, .ok n) ∧
        threeSymbols.updateWith [] numbering false = (t, .ok n) ∧ n = 2 ∧
        t.records.map (fun r => r.lineNumber.matchesLiteral (.int 2)) = [false, false, true]) ∧
    ∃ t n, (∀ inPlace, Sharing.empty.amend threeSymbols [] showing inPlace =
      ((.empty, t), .ok n)) ∧ n = 3 := by
  have hfaithful : FaithfulWithin numbering threeSymbols ((threeSymbols.find []).map Record.id) :=
    faithfulWithin_numbering (by decide) _
  have hcount : (threeSymbols.updateWith [] numbering true).2 = .ok 2 := by decide +kernel
  have hnumbers : (threeSymbols.updateWith [] numbering true).1.records.map
      (fun r => r.lineNumber.matchesLiteral (.int 2)) = [false, false, true] := by
    decide +kernel
  obtain ⟨t, n, hstored, hcopied, -⟩ := updateWith_inPlace threeSymbols [] numbering hfaithful
  rw [hstored] at hcount hnumbers
  refine ⟨⟨hfaithful, t, n, hstored, hcopied, Except.ok.inj hcount, hnumbers⟩, ?_⟩
  have hshown : (threeSymbols.updateWith [] showing.callback true).2 = .ok 3 := by decide +kernel
  obtain ⟨t, n, hstored, -, hshared⟩ := updateWith_inPlace threeSymbols [] showing.callback
    (faithfulWithin_showing threeSymbols _)
  rw [hstored] at hshown
  exact ⟨t, n, hshared .empty showing rfl rfl (List.forall_mem_singleton.mpr rfl),
    Except.ok.inj hshown⟩

/-! ### Where the two ways differ -/

/-- Two classes, one of which has a rank beyond its fields. -/
def twoClasses : Store :=
  { empty with
    records := [{ id := 0, category := "Class" },
      { id := 1, category := "Class", extra := [("rank", .int 1)] }] }

/-- Adds a reference to a record and returns it. -/
def referring : Amendment := ⟨[], [("see", .str "b")], fun _ _ => .given⟩

/-- The classes when both were given one list of references, with that list. -/
def sharedReferences : Sharing × Store :=
  (Sharing.empty.update twoClasses [] [("see", .list [.str "a"])]).1

/-- Shows a symbol, and notes on it how many are shown then. -/
def recounting : Callback := fun view r =>
  let shown := { r with exported := .bool true }
  ({ shown with lineNumber := countShown (view shown) }, .ok .given)

/-- Takes away what a record has beyond its fields. -/
def stripping : Callback := fun _ r => ({ r with extra := [] }, .ok .given)

/-- Three callbacks that return each record with its identity, and leave something else in place
    than on copies: one adds to a list that two records hold, one reads its own change in the store,
    and one takes an attribute away. -/
theorem updateWith_inPlace_differs :
    ((sharedReferences.1.amend sharedReferences.2 [] referring true).1.2.records.map Record.see =
        [some ["a", "b", "b"], some ["a", "b", "b"]] ∧
      (sharedReferences.1.amend sharedReferences.2 [] referring false).1.2.records.map Record.see =
        [some ["a", "b"], some ["a", "b"]]) ∧
    ((∀ view r, (recounting view r).2 = .ok .given ∧ (recounting view r).1.id = r.id) ∧
      ((twoClasses.updateWith [] recounting true).1.records.map fun r =>
        r.lineNumber.matchesLiteral (.int 1)) = [true, false] ∧
      ((twoClasses.updateWith [] recounting false).1.records.map fun r =>
        r.lineNumber.matchesLiteral (.int 1)) = [false, true]) ∧
    (∀ view r, (stripping view r).2 = .ok .given ∧ (stripping view r).1.id = r.id) ∧
      (twoClasses.updateWith [] stripping true).1.records.map (·.extra.names) = [[], []] ∧
      (twoClasses.updateWith [] stripping false).1.records.map (·.extra.names) =
        [[], ["rank"]] := by
  refine ⟨⟨?_, ?_⟩, ⟨fun _ _ => ⟨rfl, rfl⟩, ?_, ?_⟩, fun _ _ => ⟨rfl, rfl⟩, ?_, ?_⟩ <;>
    decide +kernel

end Store

end DocGraph
