import Mathlib.Data.List.Basic
import DocGraph.Json.Writer

/-! Which values can be written as JSON.

    The keys of a dictionary can be written if each is a text, a number, a truth value or null, and
    any two of them can be compared. A value is well keyed if this holds of all dictionaries in it
    (`wellKeyed`); a value of any other kind, such as a set, is written as a text. `isOk_writeAt` says
    that nothing else is in the way but an integer that is too long. -/

namespace DocGraph

namespace Value

/-! ### Keys -/

/-- Whether a key can be written. -/
def isKey : Value → Bool
  | null => true
  | bool _ => true
  | int _ => true
  | float _ => true
  | str _ => true
  | _ => false

/-- Whether one of two keys can come before the other: both are texts, or both are numbers. A truth
    value counts as a number. -/
def comparable (a b : Value) : Bool :=
  (a.asText?.isSome && b.asText?.isSome) || (a.quantity?.isSome && b.quantity?.isSome)

/-- Whether keys can be written and put in order. -/
def keysFit (keys : List Value) : Bool :=
  keys.all isKey && decide (keys.Pairwise fun a b => comparable a b = true)

mutual

/-- Whether the keys of all dictionaries in a value fit, where these are written as such. -/
def wellKeyed : Value → Bool
  | list items => allWellKeyed items
  | tuple items => allWellKeyed items
  | dict entries => keysFit (entries.map Prod.fst) && entriesWellKeyed entries
  | _ => true

/-- Whether all of some values are well keyed. -/
def allWellKeyed : List Value → Bool
  | [] => true
  | v :: vs => v.wellKeyed && allWellKeyed vs

/-- Whether the values of some entries are well keyed. -/
def entriesWellKeyed : List (Value × Value) → Bool
  | [] => true
  | (_, v) :: es => v.wellKeyed && entriesWellKeyed es

end

/-! ### JSON values -/

mutual

/-- Whether a value can come out of a JSON document. -/
def isJson : Value → Bool
  | null => true
  | bool _ => true
  | int _ => true
  | float _ => true
  | str _ => true
  | list items => allJson items
  | dict entries => entriesJson entries
  | _ => false

/-- Whether all of some values can. -/
def allJson : List Value → Bool
  | [] => true
  | v :: vs => v.isJson && allJson vs

/-- Whether all keys of some entries are texts and their values can. -/
def entriesJson : List (Value × Value) → Bool
  | [] => true
  | (k, v) :: es => k.asText?.isSome && v.isJson && entriesJson es

end

theorem allWellKeyed_iff : ∀ {items : List Value},
    allWellKeyed items = true ↔ ∀ v ∈ items, v.wellKeyed = true
  | [] => by simp [allWellKeyed]
  | v :: vs => by simp [allWellKeyed, allWellKeyed_iff]

theorem entriesWellKeyed_iff : ∀ {entries : List (Value × Value)},
    entriesWellKeyed entries = true ↔ ∀ e ∈ entries, e.2.wellKeyed = true
  | [] => by simp [entriesWellKeyed]
  | (k, v) :: es => by simp [entriesWellKeyed, entriesWellKeyed_iff]

theorem allJson_iff : ∀ {items : List Value}, allJson items = true ↔ ∀ v ∈ items, v.isJson = true
  | [] => by simp [allJson]
  | v :: vs => by simp [allJson, allJson_iff]

theorem isJson_singleton {v : Value} (h : v.isJson = true) : (list [v]).isJson = true :=
  allJson_iff.mpr (List.forall_mem_singleton.mpr h)

theorem entriesJson_iff : ∀ {entries : List (Value × Value)},
    entriesJson entries = true ↔ ∀ e ∈ entries, e.1.asText?.isSome = true ∧ e.2.isJson = true
  | [] => by simp [entriesJson]
  | (k, v) :: es => by simp [entriesJson, entriesJson_iff, and_assoc]

theorem isJson_of_asText? {v : Value} (h : v.asText?.isSome = true) : v.isJson = true := by
  cases v <;> first | rfl | exact absurd h Bool.false_ne_true

/-- Keys that are all texts fit. -/
theorem keysFit_of_texts {keys : List Value} (h : ∀ k ∈ keys, k.asText?.isSome = true) :
    keysFit keys = true := by
  have hkey : ∀ k : Value, k.asText?.isSome = true → k.isKey = true := by
    intro k hk
    cases k <;> first | rfl | exact absurd hk Bool.false_ne_true
  have hpairs : keys.Pairwise fun a b => comparable a b = true :=
    List.pairwise_of_forall_mem_list fun a ha b hb => by rw [comparable, h a ha, h b hb]; rfl
  rw [keysFit, Bool.and_eq_true, List.all_eq_true, decide_eq_true_iff]
  exact ⟨fun k hk => hkey k (h k hk), hpairs⟩

mutual

/-- The keys in a JSON value are texts. -/
theorem wellKeyed_of_isJson : ∀ {v : Value}, v.isJson = true → v.wellKeyed = true
  | list _, h => allWellKeyed_of_allJson h
  | dict _, h => by
    have hkeys := keysFit_of_texts
      (List.forall_mem_map.mpr fun e he => (entriesJson_iff.mp h e he).1)
    rw [wellKeyed, hkeys, entriesWellKeyed_of_entriesJson h]
    rfl
  | null, _ => rfl
  | bool _, _ => rfl
  | int _, _ => rfl
  | float _, _ => rfl
  | str _, _ => rfl

theorem allWellKeyed_of_allJson : ∀ {items : List Value},
    allJson items = true → allWellKeyed items = true
  | [], _ => rfl
  | v :: vs, h => by
    rw [allJson, Bool.and_eq_true] at h
    rw [allWellKeyed, wellKeyed_of_isJson h.1, allWellKeyed_of_allJson h.2]
    rfl

theorem entriesWellKeyed_of_entriesJson : ∀ {entries : List (Value × Value)},
    entriesJson entries = true → entriesWellKeyed entries = true
  | [], _ => rfl
  | (k, v) :: es, h => by
    rw [entriesJson, Bool.and_eq_true, Bool.and_eq_true] at h
    rw [entriesWellKeyed, wellKeyed_of_isJson h.1.2, entriesWellKeyed_of_entriesJson h.2]
    rfl

end

/-- A dictionary with text keys is well keyed if its values are. -/
theorem wellKeyed_object_iff {entries : List (String × Value)} :
    (object entries).wellKeyed = true ↔ ∀ e ∈ entries, e.2.wellKeyed = true := by
  have hkeys : keysFit ((entries.map fun e => (str e.1, e.2)).map Prod.fst) = true := by
    refine keysFit_of_texts ?_
    rw [List.map_map]
    exact List.forall_mem_map.mpr fun e _ => rfl
  rw [object, wellKeyed, hkeys, Bool.true_and, entriesWellKeyed_iff, List.forall_mem_map]

theorem wellKeyed_list_iff {items : List Value} :
    (list items).wellKeyed = true ↔ ∀ v ∈ items, v.wellKeyed = true := by
  rw [wellKeyed, allWellKeyed_iff]

end Value

namespace Json

open Value

/-! ### Writing -/

theorem not_number_of_text {v : Value} (h : v.asText?.isSome = true) :
    v.quantity?.isSome = false := by
  cases v <;> first | rfl | exact absurd h Bool.false_ne_true

theorem orderable_eq (keys : List Value) :
    orderable keys = (decide (keys.length ≤ 1) || keys.all (fun k => k.asText?.isSome) ||
      keys.all fun k => k.quantity?.isSome) := by
  rw [orderable]
  congr 2
  exact congrArg keys.all (funext fun k => by cases k <;> rfl)

/-- Keys can be put in order exactly if any two can be compared. -/
theorem orderable_iff {keys : List Value} :
    orderable keys = true ↔ keys.Pairwise fun a b => comparable a b = true := by
  rw [orderable_eq, Bool.or_eq_true, Bool.or_eq_true, decide_eq_true_iff, List.all_eq_true,
    List.all_eq_true]
  constructor
  · rintro ((hshort | htexts) | hnumbers)
    · match keys, hshort with
      | [], _ => exact .nil
      | [k], _ => exact List.pairwise_singleton _ k
    · exact List.pairwise_of_forall_mem_list fun a ha b hb => by
        rw [comparable, htexts a ha, htexts b hb]
        rfl
    · exact List.pairwise_of_forall_mem_list fun a ha b hb => by
        rw [comparable, hnumbers a ha, hnumbers b hb, Bool.true_and, Bool.or_true]
  · intro h
    match keys, h with
    | [], _ => exact .inl (.inl (Nat.zero_le 1))
    | [k], _ => exact .inl (.inl (Nat.le_refl 1))
    | first :: second :: rest, h =>
      -- what the first key is, text or number, the others have to be too
      obtain ⟨hfirst, _⟩ := List.pairwise_cons.mp h
      simp only [comparable, Bool.or_eq_true, Bool.and_eq_true] at hfirst
      rcases hfirst second List.mem_cons_self with ⟨htext, _⟩ | ⟨hnumber, _⟩
      · have hnot := not_number_of_text htext
        refine .inl (.inr (List.forall_mem_cons.mpr ⟨htext, fun k hk => ?_⟩))
        rcases hfirst k hk with ⟨_, hk⟩ | ⟨hnumber, _⟩
        · exact hk
        · exact absurd (hnot.symm.trans hnumber) Bool.false_ne_true
      · refine .inr (List.forall_mem_cons.mpr ⟨hnumber, fun k hk => ?_⟩)
        rcases hfirst k hk with ⟨htext, _⟩ | ⟨_, hk⟩
        · exact absurd ((not_number_of_text htext).symm.trans hnumber) Bool.false_ne_true
        · exact hk

theorem isOk_keyText (k : Value) : (keyText k).isOk = (k.isKey && !k.hasLongInteger) := by
  cases k with
  | bool b => cases b <;> rfl
  | int n =>
    rw [keyText, writtenInteger, isKey, hasLongInteger]
    cases Number.isTooLong n <;> rfl
  | _ => rfl

theorem isOk_allWritten : ∀ parts : List (Except WriteError String),
    (allWritten parts).isOk = parts.all Except.isOk
  | [] => rfl
  | .error e :: _ => rfl
  | .ok s :: rest => by
    have ih := isOk_allWritten rest
    rw [allWritten, List.all_cons, ← ih]
    cases allWritten rest <;> rfl

theorem isOk_writtenEntry (key value : Except WriteError String) :
    (writtenEntry key value).isOk = (key.isOk && value.isOk) := by
  cases key <;> cases value <;> rfl

theorem keysFit_eq (keys : List Value) : keysFit keys = (keys.all isKey && orderable keys) := by
  rw [keysFit]
  congr 1
  rw [Bool.eq_iff_iff, decide_eq_true_iff, orderable_iff]

mutual

/-- A value can be written, with keys in order, exactly if it is well keyed and holds no integer
    that is too long. -/
theorem isOk_writeAt {style : Style} (hs : style.sortKeys = true) (level : Nat) :
    ∀ v : Value, (writeAt style level v).isOk = (v.wellKeyed && !v.hasLongInteger)
  | .null => rfl
  | .bool true => rfl
  | .bool false => rfl
  | .int n => by
    rw [writeAt, writtenInteger, wellKeyed, hasLongInteger]
    · cases Number.isTooLong n <;> rfl
    all_goals nofun
  | .float x => rfl
  | .str s => rfl
  | .list items => by
    rw [writeAt, wellKeyed, hasLongInteger, ← isOk_writeItems hs (level + 1) items]
    cases writeItems style (level + 1) items <;> rfl
  | .tuple items => by
    rw [writeAt, wellKeyed, hasLongInteger, ← isOk_writeItems hs (level + 1) items]
    cases writeItems style (level + 1) items <;> rfl
  | .dict entries => by
    have hentries := all_isOk_writeEntries hs (level + 1) entries
    rw [writeAt, hs, Bool.true_and, wellKeyed, hasLongInteger, keysFit_eq]
    cases horder : orderable (entries.map Prod.fst) with
    | false =>
      rw [Bool.and_false, Bool.false_and, Bool.false_and, Bool.not_false, if_pos rfl]
      rfl
    | true =>
      -- in whatever order the entries are written, all of them have to be
      have hperm := List.mergeSort_perm (writeEntries style (level + 1) entries)
        fun a b => keyLe a.1 b.1
      have hparts : (allWritten (((writeEntries style (level + 1) entries).mergeSort
          fun a b => keyLe a.1 b.1).map Prod.snd)).isOk =
          ((writeEntries style (level + 1) entries).all fun p => p.2.isOk) := by
        rw [isOk_allWritten, List.all_map, hperm.all_eq]
        rfl
      simp only [Bool.not_true, Bool.false_eq_true, if_false, if_true, Bool.and_true]
      rw [← hentries, ← hparts]
      cases allWritten _ <;> rfl
  | .complex re im => rfl
  | .bytes octets => rfl
  | .set members => by
    rw [writeAt, wellKeyed, Bool.true_and]
    · cases hasLongInteger (.set members) <;> rfl
    all_goals nofun
  | .ellipsis => rfl

theorem isOk_writeItems {style : Style} (hs : style.sortKeys = true) (level : Nat) :
    ∀ items : List Value,
      (writeItems style level items).isOk = (allWellKeyed items && !anyLongInteger items)
  | [] => rfl
  | v :: vs => by
    have hv := isOk_writeAt hs level v
    have hvs := isOk_writeItems hs level vs
    have hboth : ∀ a b c d : Bool, (a && b && !(c || d)) = ((a && !c) && (b && !d)) := by decide
    rw [allWellKeyed, anyLongInteger, hboth, ← hv, ← hvs, writeItems]
    cases writeAt style level v with
    | error e => rfl
    | ok s => cases writeItems style level vs <;> rfl

theorem all_isOk_writeEntries {style : Style} (hs : style.sortKeys = true) (level : Nat) :
    ∀ entries : List (Value × Value),
      ((writeEntries style level entries).all fun p => p.2.isOk) =
        ((entries.map Prod.fst).all isKey && entriesWellKeyed entries && !anyLongEntry entries)
  | [] => rfl
  | (k, v) :: es => by
    have hv := isOk_writeAt hs level v
    have hes := all_isOk_writeEntries hs level es
    have hall : ∀ a b c d p q r : Bool, ((a && !b && (c && !d)) && (p && q && !r)) =
        ((a && p) && (c && q) && !(b || d || r)) := by decide
    rw [writeEntries, List.all_cons, isOk_writtenEntry, isOk_keyText, hv, hes, List.map_cons,
      List.all_cons, entriesWellKeyed, anyLongEntry, hall]

end

end Json

end DocGraph
