import Mathlib.Data.List.Basic
import DocGraph.Proofs.Resolution.Derivation
import DocGraph.Resolution.Basic

/-! The marks on records, and their removal.

    Several passes mark records one after the other, and the last removes those that are marked and
    what lies inside them, one after the other. Here each of these is one step: `mark_eq_map` gives
    the marks of a record from the records before any of them was made, `isIgnored_marked` says when
    it is ignored, and `sweep_eq_filter` says which records the removal leaves. -/

namespace DocGraph

namespace Visibility

/-! ### What marks leave alone -/

/-- A record without what marks change. -/
def unmarked (r : Record) : Record := { r with access := none, ignored := .null, extra := [] }

@[simp] theorem unmarked_ignore (r : Record) : unmarked (ignore r) = unmarked r := rfl

@[simp] theorem unmarked_applyAccess (settings : Settings) (r : Record) :
    unmarked (applyAccess settings r) = unmarked r := by
  simp only [applyAccess]
  split
  · rfl
  · split <;> rfl

@[simp] theorem unmarked_applyExport (r : Record) : unmarked (applyExport r) = unmarked r := by
  rw [applyExport]
  split <;> rfl

@[simp] theorem unmarked_applyUndocumented (r : Record) :
    unmarked (applyUndocumented r) = unmarked r := by
  rw [applyUndocumented]
  split <;> rfl

/-- Marks do not change which members repeat others. -/
theorem isDuplicate_map {f : Record → Record} (hf : ∀ r, unmarked (f r) = unmarked r)
    (records : List Record) (r : Record) :
    isDuplicate (records.map f) (f r) = isDuplicate records r := by
  have hid : ∀ q, (f q).id = q.id := fun q => (congrArg Record.id (hf q) :)
  have hcategory : ∀ q, (f q).category = q.category := fun q => (congrArg Record.category (hf q) :)
  have hname : ∀ q, (f q).longname = q.longname := fun q => (congrArg Record.longname (hf q) :)
  have hqualifier : ∀ q, (f q).qualifier = q.qualifier := fun q =>
    (congrArg Record.qualifier (hf q) :)
  simp only [isDuplicate, isMember, isAccessor, List.any_map, Function.comp_def, hid, hcategory,
    hname, hqualifier]

end Visibility

namespace Resolution

open Visibility

/-- The marks on a record that do not depend on others. -/
def ownMarks (settings : Settings) (r : Record) : Record :=
  let r := applyAccess settings r
  let r := if settings.keepUnexported then r else applyExport r
  if settings.keepUndocumented then r else applyUndocumented r

/-- A record with all its marks. -/
def marked (settings : Settings) (records : List Record) (r : Record) : Record :=
  if isDuplicate records r then ignore (ownMarks settings r) else ownMarks settings r

theorem unmarked_ownMarks (settings : Settings) (r : Record) :
    unmarked (ownMarks settings r) = unmarked r := by
  simp only [ownMarks]
  split <;> split <;> simp

theorem unmarked_marked (settings : Settings) (records : List Record) (r : Record) :
    unmarked (marked settings records r) = unmarked r := by
  rw [marked]
  split <;> simp [unmarked_ownMarks]

/-- The passes that mark records come to one change of each record. -/
theorem mark_eq_map (settings : Settings) (records : List Record) :
    mark settings records = records.map (marked settings records) := by
  have hown : mark settings records = applyDuplicates (records.map (ownMarks settings)) := by
    rw [mark]
    congr 1
    cases hx : settings.keepUnexported <;> cases hd : settings.keepUndocumented <;>
      simp [ownMarks, hx, hd]
  rw [hown, applyDuplicates, List.map_map]
  refine List.map_congr_left fun r _ => ?_
  simp only [Function.comp_apply, isDuplicate_map (unmarked_ownMarks settings), marked]

/-! ### Which records are ignored -/

theorem isIgnored_ignore (r : Record) : isIgnored (ignore r) = true := rfl

theorem isIgnored_applyAccess (settings : Settings) (r : Record) :
    isIgnored (applyAccess settings r) =
      (isIgnored r || hasOddAccess r ||
        !settings.access.contains (effectiveAccess settings r)) := by
  simp only [applyAccess]
  cases h : hasOddAccess r with
  | true => rw [if_pos rfl, isIgnored_ignore, Bool.or_true, Bool.true_or]
  | false =>
    rw [if_neg Bool.false_ne_true, Bool.or_false]
    cases hc : settings.access.contains (effectiveAccess settings r) with
    | true =>
      rw [if_pos rfl, Bool.not_true, Bool.or_false]
      rfl
    | false => rw [if_neg Bool.false_ne_true, isIgnored_ignore, Bool.not_false, Bool.or_true]

theorem isIgnored_applyExport (r : Record) :
    isIgnored (applyExport r) = (isIgnored r || isUnexported r) := by
  rw [applyExport]
  split
  · next h => simp [h, isIgnored_ignore]
  · next h => simp [h]

theorem isIgnored_applyUndocumented (r : Record) :
    isIgnored (applyUndocumented r) = (isIgnored r || isFlag true r.undocumented) := by
  rw [applyUndocumented]
  split
  · next h => simp [h, isIgnored_ignore]
  · next h => simp [h]

/-- When a record is ignored for a reason of its own. -/
theorem isIgnored_ownMarks (settings : Settings) (r : Record) :
    isIgnored (ownMarks settings r) =
      (isIgnored r || hasOddAccess r || !settings.access.contains (effectiveAccess settings r) ||
        (!settings.keepUnexported && isUnexported r) ||
        (!settings.keepUndocumented && isFlag true r.undocumented)) := by
  have hexported : isUnexported (applyAccess settings r) = isUnexported r :=
    (congrArg (fun q => isUnexported q) (unmarked_applyAccess settings r) :)
  have hdoc : (applyAccess settings r).undocumented = r.undocumented :=
    (congrArg Record.undocumented (unmarked_applyAccess settings r) :)
  have hdoc' : (applyExport (applyAccess settings r)).undocumented = r.undocumented := by
    rw [← hdoc]
    exact (congrArg Record.undocumented (unmarked_applyExport _) :)
  cases hx : settings.keepUnexported <;> cases hd : settings.keepUndocumented <;>
    simp [ownMarks, hx, hd, isIgnored_applyAccess, isIgnored_applyExport,
      isIgnored_applyUndocumented, hexported, hdoc, hdoc']

theorem isIgnored_marked (settings : Settings) (records : List Record) (r : Record) :
    isIgnored (marked settings records r) =
      (isIgnored (ownMarks settings r) || isDuplicate records r) := by
  rw [marked]
  split
  · next h => simp [h, isIgnored_ignore]
  · next h => simp [h]

end Resolution

namespace Visibility

/-! ### Removal -/

/-- Removing what lies inside some records, one after the other, leaves what lies inside none. -/
theorem foldl_clear : ∀ (flagged records : List Record),
    flagged.foldl clear records = records.filter fun r => !flagged.any fun f => covers f r
  | [], records => by simp
  | f :: flagged, records => by
    rw [List.foldl_cons, foldl_clear flagged, clear, List.filter_filter]
    refine List.filter_congr fun r _ => ?_
    rw [List.any_cons, Bool.not_or, Bool.and_comm]

/-- The removal leaves the records that are not ignored and lie inside none that is. -/
theorem sweep_eq_filter (records : List Record) :
    sweep records = records.filter fun r =>
      !isIgnored r && !records.any fun f => isIgnored f && covers f r := by
  rw [sweep, foldl_clear, List.filter_filter]
  refine List.filter_congr fun r _ => ?_
  rw [List.any_filter]

/-- A removal that leaves as many records as there were has removed none. -/
theorem sweep_eq_self {records : List Record} (h : ¬ (sweep records).length < records.length) :
    sweep records = records := by
  rw [sweep_eq_filter] at h ⊢
  exact List.filter_sublist.eq_of_length_le (Nat.not_lt.mp h)

end Visibility

end DocGraph
