import Mathlib.Data.List.Nodup
import DocGraph.Store.Update

/-! The identities of a store, over whole runs of operations.

    A store keeps the identities that were inserted, those that were given out and not inserted yet,
    and a number below which none is given out any more. `History` sets beside it what really
    happened: which identities were given out, inserted and removed. Every operation keeps the two in
    step (`Accounted`), since nothing that was given out or inserted reaches the number. So an
    identity is never given out or inserted twice, and the records stand in the order of their
    insertion (`run_identities`). -/

namespace DocGraph.Store

/-! ### Giving out identities -/

/-- No identity that is used or reserved reaches the next one to be given out. -/
def Bounded (s : Store) : Prop := ∀ id ∈ s.used ++ s.reserved, id < s.nextId

theorem bounded_empty : empty.Bounded := by simp [Bounded, empty]

theorem firstFree_of_not_mem {taken : List Int} {n : Int} (h : n ∉ taken) :
    ∀ k, firstFree taken k n = n
  | 0 => rfl
  | k + 1 => by rw [firstFree, if_neg (by simpa using h)]

/-- The search for a free identity ends where it begins. -/
theorem reserve_eq {s : Store} (h : s.Bounded) :
    s.reserve =
      ({ s with reserved := s.reserved ++ [s.nextId], nextId := s.nextId + 1 }, s.nextId) := by
  have hfree : s.nextId ∉ s.used ++ s.reserved := fun hmem => Int.lt_irrefl _ (h _ hmem)
  simp only [reserve, firstFree_of_not_mem hfree]

theorem Bounded.reserve {s : Store} (h : s.Bounded) : s.reserve.1.Bounded := by
  rw [reserve_eq h]
  intro id hid
  simp only [← List.append_assoc, List.mem_append, List.mem_singleton] at hid
  rcases hid with hold | rfl
  · have := h id (List.mem_append.mpr hold)
    simp only
    omega
  · simp only
    omega

/-- What inserting a record that is let in comes to. -/
theorem insert_eq_ok_iff {s t : Store} {r : Record} :
    s.insert r = .ok t ↔ r.id ∉ s.used ∧
      t = { records := s.records ++ [r]
            used := s.used ++ [r.id]
            reserved := s.reserved.filter (· != r.id)
            nextId := max s.nextId (r.id + 1) } := by
  rw [insert]
  by_cases hused : r.id ∈ s.used
  · simp [hused]
  · simp [hused, eq_comm]

theorem Bounded.insert {s t : Store} {r : Record} (h : s.Bounded) (ht : s.insert r = .ok t) :
    t.Bounded := by
  obtain ⟨_, rfl⟩ := insert_eq_ok_iff.mp ht
  intro id hid
  simp only [List.mem_append, List.mem_singleton, List.mem_filter] at hid
  simp only
  rcases hid with (hold | rfl) | ⟨hold, _⟩
  · have := h id (List.mem_append_left _ hold)
    omega
  · omega
  · have := h id (List.mem_append_right _ hold)
    omega

/-! ### What updates and removals leave alone -/

/-- Two stores in which the same has happened to identities: they give out and let in the same. -/
structure SameBooks (s t : Store) : Prop where
  used : t.used = s.used
  reserved : t.reserved = s.reserved
  nextId : t.nextId = s.nextId

theorem SameBooks.refl (s : Store) : SameBooks s s := ⟨rfl, rfl, rfl⟩

theorem SameBooks.trans {s t u : Store} (h : SameBooks s t) (h' : SameBooks t u) : SameBooks s u :=
  ⟨h'.used.trans h.used, h'.reserved.trans h.reserved, h'.nextId.trans h.nextId⟩

/-- A store that differs from another in what its records hold, but not in their identities. -/
structure Updated (s t : Store) : Prop extends SameBooks s t where
  ids : t.ids = s.ids

theorem Updated.refl (s : Store) : Updated s s := ⟨.refl s, rfl⟩

theorem Updated.trans {s t u : Store} (h : Updated s t) (h' : Updated t u) : Updated s u :=
  ⟨h.toSameBooks.trans h'.toSameBooks, h'.ids.trans h.ids⟩

/-- Whatever record is put in the place of the one with its identity. -/
theorem updated_replace (s : Store) (r : Record) : Updated s (s.replace r) := by
  refine ⟨⟨rfl, rfl, rfl⟩, ?_⟩
  rw [ids, replace, List.map_map]
  refine List.map_congr_left fun q _ => ?_
  by_cases hq : q.id = r.id <;> simp [hq]

theorem updated_updateEach (fields : Named Value) (s : Store) (ids : List Int) :
    Updated s (updateEach fields s ids).1 := by
  fun_induction updateEach fields s ids with
  | case1 s => exact .refl s
  | case2 s id ids hget ih => exact ih
  | case3 s id ids r hget r' e hset => exact updated_replace s r'
  | case4 s id ids r hget r' hset t n hmore ih =>
    rw [hmore] at ih
    exact (updated_replace s r').trans ih
  | case5 s id ids r hget r' hset hmore ih => exact (updated_replace s r').trans ih

theorem updated_settle (inPlace : Bool) (s : Store) (r left : Record)
    (reply : Except Record.SetError Reply) : Updated s (settle inPlace s r left reply).1 := by
  cases reply with
  | error e =>
    rw [settle, seen]
    cases inPlace with
    | true => exact updated_replace ..
    | false => exact .refl s
  | ok reply =>
    cases reply with
    | nothing | foreign => exact updated_replace ..
    | given | other =>
      simp only [settle]
      split <;> exact updated_replace ..

theorem updated_updateEachWith (f : Callback) (inPlace : Bool) (s : Store) (ids : List Int) :
    Updated s (updateEachWith f inPlace s ids).1 := by
  fun_induction updateEachWith f inPlace s ids with
  | case1 s => exact .refl s
  | case2 s id ids hget ih => exact ih
  | case3 s id ids r hget t e hsettle =>
    have hfirst := updated_settle inPlace s r (ask f inPlace s r).1 (ask f inPlace s r).2
    rw [hsettle] at hfirst
    exact hfirst
  | case4 s id ids r hget t n hsettle u m hmore ih =>
    have hfirst := updated_settle inPlace s r (ask f inPlace s r).1 (ask f inPlace s r).2
    rw [hsettle] at hfirst
    rw [hmore] at ih
    exact hfirst.trans ih
  | case5 s id ids r hget t n hsettle hmore ih =>
    have hfirst := updated_settle inPlace s r (ask f inPlace s r).1 (ask f inPlace s r).2
    rw [hsettle] at hfirst
    exact hfirst.trans ih

/-- A store without the records of some identities. -/
structure Dropped (gone : List Int) (s t : Store) : Prop extends SameBooks s t where
  ids : t.ids = s.ids.filter (· ∉ gone)

theorem dropped_discard (s : Store) (id : Int) : Dropped [id] s (s.discard id) := by
  refine ⟨⟨rfl, rfl, rfl⟩, ?_⟩
  rw [ids, discard, ids, List.filter_map]
  congr 1
  exact List.filter_congr fun r _ => by simp

theorem dropped_foldl_discard :
    ∀ (matched : List Record) (s : Store),
      Dropped (matched.map Record.id) s (matched.foldl (fun s r => s.discard r.id) s)
  | [], s => ⟨.refl s, by simp⟩
  | r :: matched, s => by
    have hfirst := dropped_discard s r.id
    have hrest := dropped_foldl_discard matched (s.discard r.id)
    refine ⟨hfirst.toSameBooks.trans hrest.toSameBooks, ?_⟩
    rw [List.foldl_cons, hrest.ids, hfirst.ids, List.filter_filter]
    exact List.filter_congr fun id _ => by
      simp [List.map_cons, Bool.and_comm, -List.mem_map]

theorem dropped_remove (s : Store) (ps : List Predicate) :
    Dropped ((s.find ps).map Record.id) s (s.remove ps).1 := dropped_foldl_discard (s.find ps) s

/-! ### Runs -/

/-- What can be asked of a store. -/
inductive Operation where
  | reserve
  | insert (r : Record)
  | discard (id : Int)
  | update (ps : List Predicate) (fields : Named Value)
  | updateWith (ps : List Predicate) (f : Callback) (inPlace : Bool)
  | remove (ps : List Predicate)

/-- A store, and what has happened to identities in it. -/
structure History where
  store : Store
  /-- The identities that were given out, in order. -/
  given : List Int
  /-- The identities of the records that were let in, in order. -/
  inserted : List Int
  /-- The identities of the records that were removed, in order. -/
  removed : List Int

namespace History

/-- Asks something of the store. A record that is refused changes nothing. -/
def perform (h : History) : Operation → History
  | .reserve => { h with store := h.store.reserve.1, given := h.given ++ [h.store.reserve.2] }
  | .insert r => match h.store.insert r with
    | .ok s => { h with store := s, inserted := h.inserted ++ [r.id] }
    | .error _ => h
  | .discard id =>
    { h with store := h.store.discard id, removed := h.removed ++ h.store.ids.filter (· = id) }
  | .update ps fields => { h with store := (h.store.update ps fields).1 }
  | .updateWith ps f inPlace => { h with store := (h.store.updateWith ps f inPlace).1 }
  | .remove ps =>
    { h with
      store := (h.store.remove ps).1
      removed := h.removed ++ (h.store.find ps).map Record.id }

/-- Asks for operations in order, from the empty store on. -/
def run (ops : List Operation) : History := ops.foldl perform ⟨.empty, [], [], []⟩

/-- The store's books agree with what has happened. -/
structure Accounted (h : History) : Prop where
  used : h.store.used = h.inserted
  reserved : h.store.reserved ⊆ h.given
  below : ∀ id ∈ h.given ++ h.inserted, id < h.store.nextId
  increasing : h.given.Pairwise (· < ·)
  nodup : h.inserted.Nodup
  removed : h.removed ⊆ h.inserted
  ids : h.store.ids = h.inserted.filter (· ∉ h.removed)

namespace Accounted

variable {h : History}

theorem bounded (hh : h.Accounted) : h.store.Bounded := by
  intro id hid
  rw [hh.used] at hid
  rcases List.mem_append.mp hid with hused | hreserved
  · exact hh.below id (List.mem_append_right _ hused)
  · exact hh.below id (List.mem_append_left _ (hh.reserved hreserved))

theorem nodup_ids (hh : h.Accounted) : h.store.ids.Nodup := by
  rw [hh.ids]
  exact hh.nodup.filter _

theorem reserve (hh : h.Accounted) : (h.perform .reserve).Accounted := by
  simp only [perform, reserve_eq hh.bounded]
  refine ⟨hh.used, ?_, ?_, ?_, hh.nodup, hh.removed, hh.ids⟩
  · exact List.append_subset.mpr ⟨fun id hid => List.mem_append_left _ (hh.reserved hid),
      List.subset_append_right ..⟩
  · intro id hid
    simp only [List.mem_append, List.mem_singleton] at hid
    simp only
    rcases hid with (hgiven | rfl) | hinserted
    · have := hh.below id (List.mem_append_left _ hgiven)
      omega
    · omega
    · have := hh.below id (List.mem_append_right _ hinserted)
      omega
  · refine List.pairwise_append.mpr ⟨hh.increasing, List.pairwise_singleton .., ?_⟩
    intro id hid next hnext
    rw [List.mem_singleton.mp hnext]
    exact hh.below id (List.mem_append_left _ hid)

theorem insert (hh : h.Accounted) (r : Record) : (h.perform (.insert r)).Accounted := by
  rw [perform]
  split
  · next s hs =>
    obtain ⟨hnew, rfl⟩ := insert_eq_ok_iff.mp hs
    rw [hh.used] at hnew
    refine ⟨?_, ?_, ?_, hh.increasing, ?_, ?_, ?_⟩
    · simp only [hh.used]
    · exact fun id hid => hh.reserved (List.mem_filter.mp hid).1
    · intro id hid
      simp only [List.mem_append, List.mem_singleton] at hid
      simp only
      rcases hid with hgiven | hinserted | rfl
      · have := hh.below id (List.mem_append_left _ hgiven)
        omega
      · have := hh.below id (List.mem_append_right _ hinserted)
        omega
      · omega
    · have hconcat := hh.nodup.concat hnew
      rwa [List.concat_eq_append] at hconcat
    · exact fun id hid => List.mem_append_left _ (hh.removed hid)
    · have hkept : r.id ∉ h.removed := fun hmem => hnew (hh.removed hmem)
      have hids : h.store.records.map Record.id = _ := hh.ids
      simp [Store.ids, hids, hkept]
  · exact hh

/-- An update changes nothing that is accounted for. -/
theorem updated (hh : h.Accounted) {s : Store} (hs : Updated h.store s) :
    ({ h with store := s } : History).Accounted := by
  refine ⟨?_, ?_, ?_, hh.increasing, hh.nodup, hh.removed, ?_⟩
  · exact hs.used.trans hh.used
  · rw [hs.reserved]
    exact hh.reserved
  · rw [hs.nextId]
    exact hh.below
  · exact hs.ids.trans hh.ids

/-- Records that are there can be removed. -/
theorem dropped (hh : h.Accounted) {s : Store} {gone : List Int} (hgone : gone ⊆ h.store.ids)
    (hbooks : SameBooks h.store s) (hids : s.ids = h.store.ids.filter (· ∉ gone)) :
    ({ h with store := s, removed := h.removed ++ gone } : History).Accounted := by
  have hsub : h.store.ids ⊆ h.inserted := by
    rw [hh.ids]
    exact List.filter_sublist.subset
  refine ⟨hbooks.used.trans hh.used, ?_, ?_, hh.increasing, hh.nodup, ?_, ?_⟩
  · rw [hbooks.reserved]
    exact hh.reserved
  · rw [hbooks.nextId]
    exact hh.below
  · exact List.append_subset.mpr ⟨hh.removed, List.Subset.trans hgone hsub⟩
  · rw [hids, hh.ids, List.filter_filter]
    exact List.filter_congr fun id _ => by simp [and_comm]

theorem perform (hh : h.Accounted) : ∀ op, (h.perform op).Accounted
  | .reserve => hh.reserve
  | .insert r => hh.insert r
  | .discard id => by
    have hdrop := dropped_discard h.store id
    refine hh.dropped List.filter_sublist.subset hdrop.toSameBooks (hdrop.ids.trans ?_)
    exact List.filter_congr fun other hother => by simp [hother]
  | .update _ _ => hh.updated (updated_updateEach ..)
  | .updateWith .. => hh.updated (updated_updateEachWith ..)
  | .remove ps => by
    have hdrop := dropped_remove h.store ps
    refine hh.dropped ?_ hdrop.toSameBooks hdrop.ids
    exact List.map_subset _ List.filter_sublist.subset

end Accounted

theorem accounted_foldl : ∀ (ops : List Operation) {h : History}, h.Accounted →
    (ops.foldl perform h).Accounted
  | [], _, hh => hh
  | op :: ops, _, hh => accounted_foldl ops (hh.perform op)

theorem accounted_run (ops : List Operation) : (run ops).Accounted :=
  accounted_foldl ops ⟨rfl, List.nil_subset _, by simp, .nil, .nil, List.nil_subset _, rfl⟩

end History

/-! ### Looking up identities -/

theorem get?_eq_some_iff {s : Store} (h : s.ids.Nodup) {id : Int} {r : Record} :
    s.get? id = some r ↔ r ∈ s.records ∧ r.id = id := by
  rw [get?]
  constructor
  · intro hget
    exact ⟨List.mem_of_find?_eq_some hget, by simpa using List.find?_some hget⟩
  · rintro ⟨hmem, rfl⟩
    cases hget : s.records.find? fun q => q.id = r.id with
    | none => simpa using List.find?_eq_none.mp hget r hmem
    | some q =>
      have hq : q.id = r.id := by simpa using List.find?_some hget
      rw [List.inj_on_of_nodup_map h (List.mem_of_find?_eq_some hget) hmem hq]

/-- After any operations on the empty store: the identities that were given out are increasing, and
    the next one is above them and above all that were inserted. A record whose identity was never
    inserted is let in, behind all others; one whose identity was inserted is refused, also when that
    record has been removed, and changes nothing. The records have distinct identities, each is found
    under its own, and they stand in the order of their insertion, without those that were
    removed. -/
theorem run_identities (ops : List Operation) :
    let h := History.run ops
    h.given.Pairwise (· < ·) ∧
      (∀ id ∈ h.given ++ h.inserted, id < h.store.reserve.2) ∧
      (∀ r, r.id ∉ h.inserted →
        ∃ s, h.store.insert r = .ok s ∧ s.records = h.store.records ++ [r]) ∧
      (∀ r, r.id ∈ h.inserted →
        h.store.insert r = .error ⟨r.id⟩ ∧ h.perform (.insert r) = h) ∧
      h.store.ids.Nodup ∧
      (∀ id r, h.store.get? id = some r ↔ r ∈ h.store.records ∧ r.id = id) ∧
      h.store.ids = h.inserted.filter (· ∉ h.removed) := by
  intro h
  have hh : h.Accounted := History.accounted_run ops
  refine ⟨hh.increasing, ?_, fun r hr => ?_, fun r hr => ?_, hh.nodup_ids,
    fun id r => get?_eq_some_iff hh.nodup_ids, hh.ids⟩
  · rw [reserve_eq hh.bounded]
    exact hh.below
  · rw [← hh.used] at hr
    exact ⟨_, insert_eq_ok_iff.mpr ⟨hr, rfl⟩, rfl⟩
  · have hrefused : h.store.insert r = .error ⟨r.id⟩ := by
      rw [insert, hh.used, if_pos (by simpa using hr)]
    exact ⟨hrefused, by rw [History.perform, hrefused]⟩

end DocGraph.Store
