import DocGraph.Proofs.Store.Identities

/-! The algebra of predicates.

    What a store finds is decided record by record, so the connectives of predicates are operations
    on the parts of the store that they find: a negated expectation finds the complement, several
    predicates the union, and a predicate on several attributes the intersection. Parts are taken as
    sets of identities, and stand in the order of the store. -/

namespace DocGraph

/-! ### Expectations -/

namespace Expected

theorem ofValue_of_members?_eq_none {v : Value} (h : v.members? = none) : ofValue v = equal v := by
  rw [ofValue, h]

theorem accepts_not_not (e : Expected) (v : Value) : (not (not e)).accepts v = e.accepts v := by
  simp [accepts]

/-- A value is one of some literals if it is the first or the second, and so on. -/
theorem accepts_ofValue_list {vs : List Value} (h : ∀ v ∈ vs, v.members? = none) (actual : Value) :
    (ofValue (.list vs)).accepts actual = vs.any fun v => (ofValue v).accepts actual := by
  have hlist : (ofValue (.list vs)).accepts actual = vs.any actual.matchesLiteral := rfl
  rw [hlist, Bool.eq_iff_iff, List.any_eq_true, List.any_eq_true]
  refine exists_congr fun v => and_congr_right fun hv => ?_
  rw [ofValue_of_members?_eq_none (h v hv), accepts]

end Expected

/-! ### What single predicates find -/

namespace Record

variable (r : Record)

theorem fitsAny_singleton (p : Predicate) : r.fitsAny [p] = r.fits p := by simp [fitsAny]

theorem fits_singleton (field : String) (e : Expected) :
    r.fits [(field, e)] = e.accepts (r.get field) := by
  simp [fits]

theorem fitsAny_of_ne_nil {ps : List Predicate} (h : ps ≠ []) : r.fitsAny ps = ps.any r.fits := by
  simp [fitsAny, h]

end Record

namespace Store

/-- The records of a store that are in one of some parts of it, in the order of the store. -/
def union (s : Store) (parts : List (List Record)) : List Record :=
  s.records.filter fun r => parts.any fun part => (part.map Record.id).contains r.id

/-- The records of a store that are in all of some parts of it, in the order of the store. -/
def intersection (s : Store) (parts : List (List Record)) : List Record :=
  s.records.filter fun r => parts.all fun part => (part.map Record.id).contains r.id

variable {s : Store}

/-- In a store, a record that is found is known by its identity. -/
theorem contains_find (hs : s.ids.Nodup) {r : Record} (hr : r ∈ s.records) (ps : List Predicate) :
    ((s.find ps).map Record.id).contains r.id = r.fitsAny ps := by
  rw [Bool.eq_iff_iff, List.contains_iff_mem]
  constructor
  · intro h
    obtain ⟨q, hq, hid⟩ := List.mem_map.mp h
    obtain ⟨hmem, hfits⟩ := List.mem_filter.mp hq
    rwa [← List.inj_on_of_nodup_map hs hmem hr hid]
  · intro h
    exact List.mem_map_of_mem (List.mem_filter.mpr ⟨hr, h⟩)

theorem find_eq_union (hs : s.ids.Nodup) {ps : List Predicate} (h : ps ≠ []) :
    s.find ps = s.union (ps.map fun p => s.find [p]) := by
  refine List.filter_congr fun r hr => ?_
  rw [r.fitsAny_of_ne_nil h, List.any_map]
  refine List.any_congr rfl fun p => ?_
  rw [Function.comp, contains_find hs hr, r.fitsAny_singleton]

theorem find_eq_intersection (hs : s.ids.Nodup) (p : Predicate) :
    s.find [p] = s.intersection (p.map fun f => s.find [[f]]) := by
  refine List.filter_congr fun r hr => ?_
  rw [r.fitsAny_singleton, List.all_map, Record.fits]
  refine List.all_congr rfl fun f => ?_
  rw [Function.comp, contains_find hs hr, r.fitsAny_singleton, r.fits_singleton]

/-- What an expectation finds and what its negation finds. -/
theorem find_not (s : Store) (field : String) (e : Expected) :
    s.find [[(field, .not e)]] = s.records.filter fun r => !r.fitsAny [[(field, e)]] := by
  refine List.filter_congr fun r _ => ?_
  rw [r.fitsAny_singleton, r.fitsAny_singleton, r.fits_singleton, r.fits_singleton, Expected.accepts]

/-- Expecting one of some literals is to ask for each of them in turn. -/
theorem find_ofValue_list (s : Store) (field : String) {vs : List Value}
    (hvs : ∀ v ∈ vs, v.members? = none) (hne : vs ≠ []) :
    s.find [[(field, .ofValue (.list vs))]] = s.find (vs.map fun v => [(field, .ofValue v)]) := by
  refine List.filter_congr fun r _ => ?_
  rw [r.fitsAny_singleton, r.fits_singleton, Expected.accepts_ofValue_list hvs,
    r.fitsAny_of_ne_nil (by simpa using hne), List.any_map]
  exact List.any_congr rfl fun v => (r.fits_singleton field _).symm

/-- The algebra of predicates. An expectation on an attribute and its negation find two parts of the
    store that have no record in common and make up all of it, and negating twice changes nothing.
    Expecting one of some literals, none of which is a collection, finds what the literals find in
    turn, and nothing when there are none. Several predicates find the union of what each of them
    finds, a predicate on several attributes the intersection of what the attributes find, and
    nothing is found twice. -/
theorem find_algebra (s : Store) (hs : s.ids.Nodup) (field : String) (e : Expected) :
    (s.find [[(field, e)]]).Disjoint (s.find [[(field, .not e)]]) ∧
      (s.find [[(field, e)]] ++ s.find [[(field, .not e)]]).Perm s.records ∧
      s.find [[(field, .not (.not e))]] = s.find [[(field, e)]] ∧
      (∀ vs : List Value, (∀ v ∈ vs, v.members? = none) → vs ≠ [] →
        s.find [[(field, .ofValue (.list vs))]] =
          s.find (vs.map fun v => [(field, .ofValue v)])) ∧
      s.find [[(field, .ofValue (.list []))]] = [] ∧
      (∀ ps : List Predicate, ps ≠ [] → s.find ps = s.union (ps.map fun p => s.find [p])) ∧
      (∀ p : Predicate, s.find [p] = s.intersection (p.map fun f => s.find [[f]])) ∧
      ∀ ps : List Predicate, (s.find ps).Nodup := by
  refine ⟨?_, ?_, ?_, fun vs hvs => s.find_ofValue_list field hvs, ?_,
    fun ps => find_eq_union hs, find_eq_intersection hs, fun ps => ?_⟩
  · intro r hr hnot
    rw [find_not] at hnot
    simpa [(List.mem_filter.mp hr).2] using (List.mem_filter.mp hnot).2
  · rw [find_not]
    exact List.filter_append_perm _ s.records
  · refine List.filter_congr fun r _ => ?_
    simp only [r.fitsAny_singleton, r.fits_singleton, Expected.accepts_not_not]
  · refine List.filter_eq_nil_iff.mpr fun r _ => ?_
    simp [r.fitsAny_singleton, r.fits_singleton, Expected.ofValue, Value.members?, Expected.accepts]
  · exact (hs.of_map).filter _

/-- Three symbols: one is shown, one has a number in place of a truth value, and one says nothing. -/
def mixedFlags : Store :=
  { empty with
    records := [{ id := 5, category := "Class", exported := .bool true },
      { id := 3, category := "Function", exported := .int 1 },
      { id := 8, category := "Variable" }] }

/-- A truth value is kept apart from the number that it counts as, also when it is negated. -/
theorem find_algebra_mixedFlags :
    let shown : Expected := .equal (.bool true)
    let others : List Value := [.int 1, .null]
    mixedFlags.ids.Nodup ∧ (∀ v ∈ others, v.members? = none) ∧
      (mixedFlags.find [[("export", shown)]] ++ mixedFlags.find [[("export", .not shown)]]).Perm
        mixedFlags.records ∧
      mixedFlags.find [[("export", .ofValue (.list others))]] =
        mixedFlags.find (others.map fun v => [("export", .ofValue v)]) ∧
      (mixedFlags.find [[("export", .not shown)]]).map Record.id = [3, 8] ∧
      (mixedFlags.find [[("export", .ofValue (.list others))]]).map Record.id = [3, 8] := by
  intro shown others
  have hids : mixedFlags.ids.Nodup := by decide
  have hothers : ∀ v ∈ others, v.members? = none :=
    List.forall_mem_cons.mpr ⟨rfl, List.forall_mem_singleton.mpr rfl⟩
  obtain ⟨-, hperm, -, hlist, -⟩ := find_algebra mixedFlags hids "export" shown
  exact ⟨hids, hothers, hperm, hlist others hothers (List.cons_ne_nil _ _), by decide +kernel,
    by decide +kernel⟩

end Store

end DocGraph
