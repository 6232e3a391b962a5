import Mathlib.Data.List.Basic
import DocGraph.Proofs.Resolution.Lists
import DocGraph.Proofs.Resolution.Survivors

/-! Resolving a second time.

    A record that is kept comes from one without a reason to remove it, and its access is settled
    (`KeptFrom`). So there is no such reason among the records that are kept either
    (`not_flagged_resolveRecords`). If hidden records are removed, none is left to promote, and then
    no pass has anything left to do (`resolve_resolve`). -/

namespace DocGraph

namespace Visibility

/-- Promotion changes nothing where nothing is hidden. -/
theorem promoteFrom_of_exported : ∀ (todo done : List Record),
    (∀ r ∈ todo, isUnexported r = false) → promoteFrom done todo = done ++ todo
  | [], done, _ => by rw [promoteFrom, List.append_nil]
  | r :: rest, done, h => by
    have hr : promote (done ++ r :: rest) r = r := by
      rw [promote, h r List.mem_cons_self, Bool.false_and, if_neg Bool.false_ne_true]
    rw [promoteFrom, hr, promoteFrom_of_exported rest _ fun q hq => h q (List.mem_cons_of_mem r hq),
      List.append_assoc, List.singleton_append]

/-- The removal changes nothing where nothing is ignored. -/
theorem sweep_of_heeded {records : List Record} (h : ∀ r ∈ records, isIgnored r = false) :
    sweep records = records := by
  rw [sweep_eq_filter, List.filter_eq_self]
  intro r hr
  rw [h r hr, Bool.not_false, Bool.true_and, Bool.not_eq_true', List.any_eq_false]
  intro f hf
  simp [h f hf]

end Visibility

namespace Resolution

open Relations Visibility

/-! ### Records that are kept -/

/-- All that happens to a record without a reason to remove it is that its access is settled. -/
theorem marked_of_not_flagged {settings : Settings} {records : List Record} {r : Record}
    (h : ¬ Flagged settings records r) :
    marked settings records r =
      { r with access := some (effectiveAccess settings r), extra := r.extra.erase "access" } := by
  rw [← isIgnored_marked_iff, Bool.not_eq_true, isIgnored_marked, isIgnored_ownMarks] at h
  simp only [Bool.or_eq_false_iff] at h
  obtain ⟨⟨⟨⟨⟨_, hodd⟩, haccess⟩, hexport⟩, hdoc⟩, hduplicate⟩ := h
  have hsettled : applyAccess settings r =
      { r with access := some (effectiveAccess settings r), extra := r.extra.erase "access" } := by
    rw [Bool.not_eq_false'] at haccess
    simp only [applyAccess, hodd, haccess, Bool.false_eq_true, if_false, if_true]
  have hexported : (if settings.keepUnexported then applyAccess settings r
      else applyExport (applyAccess settings r)) = applyAccess settings r := by
    have hsame : isUnexported (applyAccess settings r) = isUnexported r := by
      rw [hsettled]
      rfl
    split
    · rfl
    · next hkeep =>
      rw [eq_false_of_ne_true hkeep, Bool.not_false, Bool.true_and] at hexport
      rw [applyExport, hsame, hexport, if_neg Bool.false_ne_true]
  have hown : ownMarks settings r = applyAccess settings r := by
    have hsame : (applyAccess settings r).undocumented = r.undocumented := by rw [hsettled]
    simp only [ownMarks, hexported]
    split
    · rfl
    · next hkeep =>
      rw [eq_false_of_ne_true hkeep, Bool.not_false, Bool.true_and] at hdoc
      rw [applyUndocumented, hsame, hdoc, if_neg Bool.false_ne_true]
  rw [marked, hduplicate, if_neg Bool.false_ne_true, hown, hsettled]

/-- A record as it is kept: only its access, its relations and what stands beside its fields may
    differ from what they were before the marks. -/
structure KeptFrom (settings : Settings) (r q : Record) : Prop where
  bare : bare r = bare q
  ignored : r.ignored = q.ignored
  access : r.access = some (effectiveAccess settings q)
  settled : r.extra.get? "access" = none

theorem keptFrom_marked {settings : Settings} {records : List Record} {r : Record}
    (h : ¬ Flagged settings records r) : KeptFrom settings (marked settings records r) r := by
  refine ⟨bare_marked settings records r, ?_, ?_, ?_⟩ <;> rw [marked_of_not_flagged h]
  exact Named.get?_filter_of_not (fun n => n ≠ "access") (by decide) r.extra

theorem KeptFrom.dressed {settings : Settings} {r q : Record} (h : KeptFrom settings r q)
    (g : Record → Relations) : KeptFrom settings (dressed g r) q := by
  refine ⟨h.bare, h.ignored, h.access, ?_⟩
  rw [← h.settled]
  exact get?_besideOf (by decide) r

theorem mem_resolveRecords {settings : Settings} {records : List Record} {r : Record}
    (h : r ∈ resolveRecords settings records) :
    ∃ q ∈ prepare settings records, ¬ Flagged settings (prepare settings records) q ∧
      KeptFrom settings r q := by
  have hswept : ∀ m ∈ sweep (mark settings (prepare settings records)),
      ∃ q ∈ prepare settings records, ¬ Flagged settings (prepare settings records) q ∧
        KeptFrom settings m q := by
    classical
    intro m hm
    rw [sweep_mark] at hm
    obtain ⟨q, hq, rfl⟩ := List.mem_map.mp hm
    obtain ⟨hmem, hsurvives⟩ := List.mem_filter.mp hq
    have hnot := (of_decide_eq_true hsurvives).1
    exact ⟨q, hmem, hnot, keptFrom_marked hnot⟩
  simp only [resolveRecords, removeIgnored] at h
  split at h
  · rw [deriveAll_eq_map] at h
    obtain ⟨m, hm, rfl⟩ := List.mem_map.mp h
    obtain ⟨q, hq, hnot, hkept⟩ := hswept m hm
    exact ⟨q, hq, hnot, hkept.dressed _⟩
  · exact hswept r h

/-! ### No reason is left -/

theorem effectiveAccess_ne_empty (settings : Settings) (r : Record) :
    effectiveAccess settings r ≠ "" := by
  rw [effectiveAccess]
  split
  · next access h => exact (filled_eq_some_iff.mp h).2
  · split <;> decide

/-- A record that is kept has the access that it had. -/
theorem KeptFrom.effectiveAccess_eq {settings : Settings} {r q : Record}
    (h : KeptFrom settings r q) : effectiveAccess settings r = effectiveAccess settings q := by
  have hfilled : Record.filled r.access = some (effectiveAccess settings q) :=
    filled_eq_some_iff.mpr ⟨h.access, effectiveAccess_ne_empty settings q⟩
  rw [effectiveAccess, hfilled]

/-- Where the records come from others as they are kept, a reason to remove one of them was a reason
    to remove the one that it comes from. -/
theorem Flagged.of_keptFrom {settings : Settings} {records records' : List Record} {r q : Record}
    (hall : ∀ r' ∈ records', ∃ q' ∈ records, KeptFrom settings r' q')
    (hkept : KeptFrom settings r q) (h : Flagged settings records' r) :
    Flagged settings records q := by
  have hmember : ∀ {a b : Record}, KeptFrom settings a b → Member a = Member b :=
    fun hab => (congrArg Member hab.bare :)
  have hname : ∀ {a b : Record}, KeptFrom settings a b → a.longname = b.longname :=
    fun hab => (congrArg Record.longname hab.bare :)
  have hid : ∀ {a b : Record}, KeptFrom settings a b → a.id = b.id :=
    fun hab => (congrArg Record.id hab.bare :)
  cases h with
  | ignored h => exact .ignored (hkept.ignored ▸ h)
  | access h hk =>
    rw [hasAccess_iff, hkept.effectiveAccess_eq, ← hasAccess_iff] at h
    exact .access h hk
  | oddAccess h => exact absurd (hkept.settled.symm.trans h) (Option.some_ne_none _).symm
  | unexported hs h => exact .unexported hs ((congrArg Record.exported hkept.bare).symm.trans h)
  | undocumented hs h =>
    exact .undocumented hs ((congrArg Record.undocumented hkept.bare).symm.trans h)
  | @accessor hr r' hr' hn ha =>
    obtain ⟨q', hq', hkept'⟩ := hall r' hr'
    rw [hmember hkept] at hr
    rw [hname hkept, hname hkept'] at hn
    exact .accessor hr hq' hn ((congrArg Accessor hkept'.bare).mp ha)
  | @repeated hr r' hr' hn hm hi =>
    obtain ⟨q', hq', hkept'⟩ := hall r' hr'
    rw [hmember hkept] at hr
    rw [hname hkept, hname hkept'] at hn
    rw [hmember hkept'] at hm
    rw [hid hkept, hid hkept'] at hi
    exact .repeated hr hq' hn hm hi

/-- Among the records that are kept there is no reason to remove any. -/
theorem not_flagged_resolveRecords {settings : Settings} {records : List Record} {r : Record}
    (hr : r ∈ resolveRecords settings records) :
    ¬ Flagged settings (resolveRecords settings records) r := by
  intro hflag
  obtain ⟨q, _, hnot, hkept⟩ := mem_resolveRecords hr
  refine hnot (hflag.of_keptFrom (fun r' hr' => ?_) hkept)
  obtain ⟨q', hq', _, hkept'⟩ := mem_resolveRecords hr'
  exact ⟨q', hq', hkept'⟩

/-- Marking the records that are kept changes none of them. -/
theorem mark_resolveRecords (settings : Settings) (records : List Record) :
    mark settings (resolveRecords settings records) = resolveRecords settings records := by
  rw [mark_eq_map]
  conv_rhs => rw [← List.map_id (resolveRecords settings records)]
  refine List.map_congr_left fun r hr => ?_
  obtain ⟨q, _, _, hkept⟩ := mem_resolveRecords hr
  rw [marked_of_not_flagged (not_flagged_resolveRecords hr), hkept.effectiveAccess_eq,
    ← hkept.access, Named.erase_of_get?_eq_none hkept.settled]
  rfl

/-- Nothing happens to the records that are kept before they are marked again, if their names are
    not shortened again. -/
theorem prepare_of_unshortened {settings : Settings} (hk : settings.keepUnexported = false)
    {records : List Record} (hshort : shorten settings (resolveRecords settings records) =
      resolveRecords settings records) :
    prepare settings (resolveRecords settings records) = resolveRecords settings records := by
  have hexported : ∀ r ∈ resolveRecords settings records, isUnexported r = false := by
    intro r hr
    rw [← Bool.not_eq_true, isUnexported, isFlag_iff]
    exact fun h => not_flagged_resolveRecords hr (.unexported hk h)
  rw [prepare, hshort, deriveAll_of_settled (settled_resolveRecords settings records), promoteAll,
    promoteFrom_of_exported _ [] hexported, List.nil_append]

theorem prepare_resolveRecords {settings : Settings} (hk : settings.keepUnexported = false)
    (hp : settings.removeCommonPath = false) (records : List Record) :
    prepare settings (resolveRecords settings records) = resolveRecords settings records :=
  prepare_of_unshortened hk (by rw [shorten, hp, if_neg Bool.false_ne_true])

/-- Nothing is removed from the records that are kept. -/
theorem removeIgnored_resolveRecords (settings : Settings) (records : List Record) :
    removeIgnored (resolveRecords settings records) = resolveRecords settings records := by
  have hheeded : ∀ r ∈ resolveRecords settings records, isIgnored r = false := by
    intro r hr
    rw [← Bool.not_eq_true, isIgnored, isFlag_iff]
    exact fun h => not_flagged_resolveRecords hr (.ignored h)
  simp only [removeIgnored, sweep_of_heeded hheeded, Nat.lt_irrefl, if_false]

/-- Resolving a second time changes nothing, unless hidden records are kept or the directory that is
    left is shortened again. -/
theorem resolve_resolve (settings : Settings) (hk : settings.keepUnexported = false)
    (hp : settings.removeCommonPath = false) (s : Store) :
    resolve settings (resolve settings s) = resolve settings s := by
  have hrecords : resolveRecords settings (resolveRecords settings s.records) =
      resolveRecords settings s.records := by
    rw [resolveRecords, prepare_resolveRecords hk hp, mark_resolveRecords,
      removeIgnored_resolveRecords]
  simp only [resolve, hrecords]

/-- A run that removes records, and derives the relations of the others anew, is not repeated. -/
theorem resolve_resolve_generations :
    (resolve {} generations).records.map Record.id = [1, 4, 5, 6, 7] ∧
      resolve {} (resolve {} generations) = resolve {} generations :=
  ⟨by decide +kernel, resolve_resolve {} rfl rfl generations⟩

end Resolution

end DocGraph
