import Mathlib.Data.List.Basic
import DocGraph.Resolution.Visibility

/-! Which records are exported because a shown class depends on them.

    The pass visits the records in order, and each is judged by those before it as they have become
    and those behind it as they were. A hidden record is needed when dependents lead from it,
    through hidden ones, to one that is shown (`Needed`). The pass exports those for which every
    hidden record on the way stands before the one that it is a dependent of (`NeededInOrder`,
    `promoteAll_eq_mapIdx`). So its result is closed exactly if being needed at all is being needed
    in this order (`promoteAll_closed_iff`). -/

namespace DocGraph

namespace Visibility

/-! ### What promotion leaves alone -/

/-- A record without what promotion changes. -/
def withoutExport (r : Record) : Record := { r with exported := .null }

theorem withoutExport_promote (records : List Record) (r : Record) :
    withoutExport (promote records r) = withoutExport r := by
  rw [promote]
  split <;> rfl

theorem promoteFrom_withoutExport : ∀ (todo done : List Record),
    (promoteFrom done todo).map withoutExport = (done ++ todo).map withoutExport
  | [], done => by rw [promoteFrom, List.append_nil]
  | r :: rest, done => by
    rw [promoteFrom, promoteFrom_withoutExport rest]
    simp [withoutExport_promote]

/-- Promotion changes nothing but exports. -/
theorem promoteAll_withoutExport (records : List Record) :
    (promoteAll records).map withoutExport = records.map withoutExport :=
  promoteFrom_withoutExport records []

/-! ### Needed records -/

/-- The place of the first record whose long name is a given value. -/
def place? (records : List Record) (name : Value) : Option Nat :=
  records.findIdx? fun r => r.longname.matchesLiteral name

/-- The record at a place is hidden. -/
def HiddenAt (records : List Record) (i : Nat) : Prop :=
  ∃ r, records[i]? = some r ∧ isUnexported r = true

/-- The record at a place is not ignored. -/
def HeededAt (records : List Record) (i : Nat) : Prop :=
  ∃ r, records[i]? = some r ∧ r.ignored.truthy = false

/-- The record at a place is shown. -/
def ShownAt (records : List Record) (i : Nat) : Prop :=
  ∃ r, records[i]? = some r ∧ isShown r = true

/-- The record at `j` is the first of a name that stands among the dependents of that at `i`. -/
def DependentAt (records : List Record) (i j : Nat) : Prop :=
  ∃ r, records[i]? = some r ∧ ∃ name ∈ dependentNames r, place? records name = some j

/-- Dependents lead from a hidden record to a shown one, through hidden ones. -/
inductive Needed (records : List Record) : Nat → Prop
  | shown {i j : Nat} (hi : HiddenAt records i) (hd : DependentAt records i j)
      (hj : ShownAt records j) : Needed records i
  | through {i j : Nat} (hi : HiddenAt records i) (hd : DependentAt records i j)
      (hj : HeededAt records j) (hn : Needed records j) : Needed records i

/-- As `Needed`, with every hidden record on the way before the one that it is a dependent of. -/
inductive NeededInOrder (records : List Record) : Nat → Prop
  | shown {i j : Nat} (hi : HiddenAt records i) (hd : DependentAt records i j)
      (hj : ShownAt records j) : NeededInOrder records i
  | through {i j : Nat} (hi : HiddenAt records i) (hd : DependentAt records i j)
      (hj : HeededAt records j) (hlt : j < i) (hn : NeededInOrder records j) :
      NeededInOrder records i

theorem NeededInOrder.needed {records : List Record} {i : Nat} (h : NeededInOrder records i) :
    Needed records i := by
  induction h with
  | shown hi hd hj => exact .shown hi hd hj
  | through hi hd hj _ _ ih => exact .through hi hd hj ih

/-- No hidden record has a shown dependent. -/
def Closed (records : List Record) : Prop :=
  ∀ r ∈ records, isUnexported r = true → isNecessary records r = false

instance (records : List Record) : Decidable (Closed records) :=
  inferInstanceAs (Decidable (∀ r ∈ records, _ → _))

/-! ### The pass, place by place -/

open Classical in
/-- What becomes of the record at a place. -/
noncomputable def promotedAt (records : List Record) (i : Nat) (r : Record) : Record :=
  if NeededInOrder records i then { r with exported := .bool true } else r

/-- The records when the pass comes to a place. -/
noncomputable def reached (records : List Record) (k : Nat) : List Record :=
  records.mapIdx fun i r => if i < k then promotedAt records i r else r

theorem withoutExport_promotedAt (records : List Record) (i : Nat) (r : Record) :
    withoutExport (promotedAt records i r) = withoutExport r := by
  rw [promotedAt]
  split <;> rfl

theorem isNecessary_iff {records : List Record} {r : Record} :
    isNecessary records r = true ↔
      ∃ name ∈ dependentNames r, ∃ j, place? records name = some j ∧ ShownAt records j := by
  have hnamed : ∀ name, named? records name = (place? records name).bind (records[·]?) :=
    fun name => List.find?_eq_bind_findIdx?_getElem?
  rw [isNecessary, List.any_eq_true]
  refine exists_congr fun name => and_congr_right fun _ => ?_
  rw [hnamed]
  cases place? records name with
  | none => simp
  | some j =>
    simp only [Option.bind_some, Option.some.injEq, exists_eq_left', ShownAt]
    cases records[j]? <;> simp

theorem getElem?_reached (records : List Record) (k j : Nat) :
    (reached records k)[j]? =
      records[j]?.map fun r => if j < k then promotedAt records j r else r := by
  rw [reached, List.getElem?_mapIdx]

theorem place?_reached (records : List Record) (k : Nat) (name : Value) :
    place? (reached records k) name = place? records name := by
  have hplace : ∀ rs : List Record, place? rs name =
      (rs.map withoutExport).findIdx? fun r => r.longname.matchesLiteral name := fun rs => by
    rw [List.findIdx?_map]
    rfl
  have hmap : (reached records k).map withoutExport = records.map withoutExport := by
    refine List.ext_getElem? fun j => ?_
    rw [List.getElem?_map, List.getElem?_map, getElem?_reached, Option.map_map]
    congr 1
    funext r
    by_cases h : j < k <;> simp [h, withoutExport_promotedAt]
  rw [hplace, hplace, hmap]

theorem isShown_iff {r : Record} :
    isShown r = true ↔ r.ignored.truthy = false ∧ r.exported.truthy = true := by
  simp [isShown]

/-- The shown records are those that were, and the promoted ones that are not ignored. -/
theorem shownAt_reached {records : List Record} {k j : Nat} :
    ShownAt (reached records k) j ↔
      ShownAt records j ∨ j < k ∧ HeededAt records j ∧ NeededInOrder records j := by
  simp only [ShownAt, HeededAt, getElem?_reached, Option.map_eq_some_iff]
  constructor
  · rintro ⟨_, ⟨r, hr, rfl⟩, hs⟩
    by_cases hk : j < k
    · by_cases hn : NeededInOrder records j
      · rw [if_pos hk, promotedAt, if_pos hn, isShown_iff] at hs
        exact Or.inr ⟨hk, ⟨r, hr, hs.1⟩, hn⟩
      · rw [if_pos hk, promotedAt, if_neg hn] at hs
        exact Or.inl ⟨r, hr, hs⟩
    · rw [if_neg hk] at hs
      exact Or.inl ⟨r, hr, hs⟩
  · rintro (⟨r, hr, hs⟩ | ⟨hk, ⟨r, hr, hi⟩, hn⟩)
    · refine ⟨_, ⟨r, hr, rfl⟩, ?_⟩
      rw [isShown_iff] at hs
      by_cases hn : j < k ∧ NeededInOrder records j
      · rw [if_pos hn.1, promotedAt, if_pos hn.2, isShown_iff]
        exact ⟨hs.1, rfl⟩
      · have hsame : (if j < k then promotedAt records j r else r) = r := by
          rw [promotedAt]
          split
          · next hk => rw [if_neg fun h => hn ⟨hk, h⟩]
          · rfl
        rw [hsame, isShown_iff]
        exact hs
    · refine ⟨_, ⟨r, hr, rfl⟩, ?_⟩
      rw [if_pos hk, promotedAt, if_pos hn, isShown_iff]
      exact ⟨hi, rfl⟩

/-- A record has a shown dependent when the pass has come to a place exactly if one of its
    dependents was shown or has been promoted. -/
theorem isNecessary_reached {records : List Record} {i k : Nat} {r : Record}
    (hr : records[i]? = some r) :
    isNecessary (reached records k) r = true ↔ ∃ j, DependentAt records i j ∧
      (ShownAt records j ∨ j < k ∧ HeededAt records j ∧ NeededInOrder records j) := by
  rw [isNecessary_iff]
  simp only [place?_reached, shownAt_reached]
  constructor
  · rintro ⟨name, hn, j, hj, hs⟩
    exact ⟨j, ⟨r, hr, name, hn, hj⟩, hs⟩
  · rintro ⟨j, ⟨q, hq, name, hn, hj⟩, hs⟩
    obtain rfl := Option.some.inj (hr.symm.trans hq)
    exact ⟨name, hn, j, hj, hs⟩

/-- A record is exported when the pass comes to it exactly if it is needed in order. -/
theorem promote_reached {records : List Record} {k : Nat} {r : Record}
    (hr : records[k]? = some r) : promote (reached records k) r = promotedAt records k r := by
  have hiff : (isUnexported r && isNecessary (reached records k) r) = true ↔
      NeededInOrder records k := by
    rw [Bool.and_eq_true, isNecessary_reached hr]
    constructor
    · rintro ⟨hu, j, hd, hs | ⟨hlt, hh, hn⟩⟩
      · exact .shown ⟨r, hr, hu⟩ hd hs
      · exact .through ⟨r, hr, hu⟩ hd hh hlt hn
    · rintro (⟨⟨q, hq, hu⟩, hd, hs⟩ | ⟨⟨q, hq, hu⟩, hd, hh, hlt, hn⟩)
      · obtain rfl := Option.some.inj (hr.symm.trans hq)
        exact ⟨hu, _, hd, Or.inl hs⟩
      · obtain rfl := Option.some.inj (hr.symm.trans hq)
        exact ⟨hu, _, hd, Or.inr ⟨hlt, hh, hn⟩⟩
  rw [promote, promotedAt]
  by_cases hn : NeededInOrder records k
  · rw [if_pos hn, if_pos (hiff.mpr hn)]
  · rw [if_neg hn, if_neg fun h => hn (hiff.mp h)]

theorem reached_append {records pre rest : List Record} (h : records = pre ++ rest) :
    reached records pre.length = pre.mapIdx (promotedAt records) ++ rest := by
  refine List.ext_getElem? fun j => ?_
  have hj : records[j]? = (pre ++ rest)[j]? := congrArg (fun rs : List Record => rs[j]?) h
  rw [getElem?_reached, hj]
  by_cases hlt : j < pre.length
  · rw [List.getElem?_append_left hlt, List.getElem?_append_left (by simpa using hlt),
      List.getElem?_mapIdx]
    simp [hlt]
  · rw [List.getElem?_append_right (by omega), List.getElem?_append_right (by simp; omega)]
    simp [hlt]

/-- The pass over the rest of the records, when those before it have become what they become. -/
theorem promoteFrom_mapIdx {records : List Record} : ∀ (todo pre : List Record),
    records = pre ++ todo →
    promoteFrom (pre.mapIdx (promotedAt records)) todo = records.mapIdx (promotedAt records)
  | [], pre, h => by
    obtain rfl : records = pre := by rw [h, List.append_nil]
    rfl
  | r :: rest, pre, h => by
    have hr : records[pre.length]? = some r := by simp [h]
    rw [promoteFrom, ← reached_append h, promote_reached hr, ← List.mapIdx_concat]
    exact promoteFrom_mapIdx rest (pre ++ [r]) (by simp [h])

/-- The pass exports the records that are needed in order, and changes nothing else. -/
theorem promoteAll_eq_mapIdx (records : List Record) :
    promoteAll records = records.mapIdx (promotedAt records) :=
  promoteFrom_mapIdx records [] rfl

/-! ### Closure -/

theorem promoteAll_eq_reached (records : List Record) :
    promoteAll records = reached records records.length := by
  have happend := reached_append (List.append_nil records).symm
  rw [happend, List.append_nil, promoteAll_eq_mapIdx]

theorem isUnexported_promotedAt {records : List Record} {i : Nat} {r : Record} :
    isUnexported (promotedAt records i r) = true ↔
      isUnexported r = true ∧ ¬ NeededInOrder records i := by
  rw [promotedAt]
  split
  · next h => simp [h, isUnexported, isFlag]
  · next h => simp [h]

/-- Promotion does not change which classes depend on a record. -/
theorem isNecessary_promotedAt (all records : List Record) (i : Nat) (r : Record) :
    isNecessary all (promotedAt records i r) = isNecessary all r :=
  (congrArg (isNecessary all) (withoutExport_promotedAt records i r) :)

theorem mem_promoteAll {records : List Record} {q : Record} :
    q ∈ promoteAll records ↔ ∃ i r, records[i]? = some r ∧ promotedAt records i r = q := by
  rw [promoteAll_eq_mapIdx, List.mem_iff_getElem?]
  simp only [List.getElem?_mapIdx, Option.map_eq_some_iff]

/-- After the pass no hidden record has a shown dependent, exactly if every needed record is needed
    in order. -/
theorem promoteAll_closed_iff (records : List Record) :
    Closed (promoteAll records) ↔ ∀ i, Needed records i → NeededInOrder records i := by
  constructor
  · intro hclosed i hn
    induction hn with
    | shown hi hd hj => exact .shown hi hd hj
    | @through i j hi hd hj _ ih =>
      -- otherwise the record would be left hidden, with a promoted dependent
      by_contra hnot
      obtain ⟨r, hr, hu⟩ := hi
      obtain ⟨c, hc, _⟩ := id hj
      have hlt : j < records.length := (List.getElem?_eq_some_iff.mp hc).1
      have hnecessary : isNecessary (promoteAll records) (promotedAt records i r) = true := by
        rw [isNecessary_promotedAt, promoteAll_eq_reached, isNecessary_reached hr]
        exact ⟨j, hd, Or.inr ⟨hlt, hj, ih⟩⟩
      have hnone := hclosed _ (mem_promoteAll.mpr ⟨i, r, hr, rfl⟩)
        (isUnexported_promotedAt.mpr ⟨hu, hnot⟩)
      rw [hnone] at hnecessary
      exact Bool.false_ne_true hnecessary
  · intro hall q hq hhidden
    obtain ⟨i, r, hr, rfl⟩ := mem_promoteAll.mp hq
    obtain ⟨hu, hnot⟩ := isUnexported_promotedAt.mp hhidden
    rw [isNecessary_promotedAt, promoteAll_eq_reached, ← Bool.not_eq_true, isNecessary_reached hr]
    rintro ⟨j, hd, hs | ⟨_, hh, hn⟩⟩
    · exact hnot (.shown ⟨r, hr, hu⟩ hd hs)
    · exact hnot (hall i (.through ⟨r, hr, hu⟩ hd hh hn.needed))

/-- An interface that stands behind the one that it extends, and a shown class behind both that
    implements it. -/
def lateInterface : List Record :=
  let shape : Record :=
    { id := 1, category := "Class", longname := .str "Shape", exported := .bool false }
  let drawable : Record :=
    { id := 2, category := "Class", longname := .str "Drawable", exported := .bool false,
      parents := some ["Shape"] }
  let square : Record :=
    { id := 3, category := "Class", longname := .str "Square", exported := .bool true,
      interfaces := some ["Drawable"] }
  [shape, drawable, square]

/-- The first interface stays hidden, although the second is exported and extends it. In the
    opposite order of the records both are exported. -/
theorem promoteAll_not_closed :
    ¬ Closed (promoteAll (Relations.deriveAll lateInterface)) ∧
      Closed (promoteAll (Relations.deriveAll lateInterface.reverse)) := by
  decide +kernel

end Visibility

end DocGraph
