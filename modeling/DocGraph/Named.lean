/-! Things by name, in the order in which their names came up. -/

namespace DocGraph

/-- Things with names. -/
abbrev Named (α : Type) := List (String × α)

namespace Named

/-- The thing of a name: the first that has it. -/
def get? {α : Type} (entries : Named α) (name : String) : Option α :=
  match entries with
  | [] => none
  | e :: es => if e.1 = name then some e.2 else get? es name

/-- Sets the thing of a name: a name already there keeps its place. -/
def put {α : Type} (entries : Named α) (name : String) (a : α) : Named α :=
  match entries with
  | [] => [(name, a)]
  | e :: es => if e.1 = name then (name, a) :: es else e :: put es name a

/-- Takes the thing of a name away. -/
def erase {α : Type} (entries : Named α) (name : String) : Named α :=
  entries.filter fun e => e.1 ≠ name

/-- Sets things in order. -/
def putAll {α : Type} (entries more : Named α) : Named α :=
  more.foldl (fun es e => put es e.1 e.2) entries

/-- The names in order. -/
def names {α : Type} (entries : Named α) : List String := entries.map Prod.fst

/-- A name without a thing need not be taken away. -/
theorem erase_of_get?_eq_none {α : Type} {name : String} : ∀ {entries : Named α},
    entries.get? name = none → entries.erase name = entries
  | [], _ => rfl
  | e :: es, h => by
    rw [get?] at h
    split at h
    · exact absurd h (Option.some_ne_none _)
    · next he =>
      have ih : es.filter (fun e => e.1 ≠ name) = es := erase_of_get?_eq_none h
      rw [erase, List.filter_cons, if_pos (by simpa using he), ih]

/-- The names are those that have a thing. -/
theorem mem_names_iff {α : Type} {name : String} : ∀ {entries : Named α},
    name ∈ entries.names ↔ ∃ a, entries.get? name = some a
  | [] => by simp [names, get?]
  | e :: es => by
    by_cases he : e.1 = name
    · simp [names, get?, he]
    · have ih : name ∈ names es ↔ _ := mem_names_iff
      rw [get?, if_neg he, ← ih]
      simp [names, Ne.symm he]

theorem not_mem_names_iff {α : Type} {name : String} {entries : Named α} :
    name ∉ entries.names ↔ entries.get? name = none := by
  rw [mem_names_iff, not_exists, Option.eq_none_iff_forall_ne_some]

/-- Changing all things, each by its name, does so to the thing of a name. -/
theorem get?_map {α β : Type} (f : String → α → β) {name : String} : ∀ entries : Named α,
    get? (entries.map fun e => (e.1, f e.1 e.2)) name = (entries.get? name).map (f name)
  | [] => rfl
  | e :: es => by
    by_cases he : e.1 = name
    · simp [get?, he]
    · simp [get?, he, get?_map f es]

/-! ### Keeping only some names -/

variable {α : Type} (keep : String → Bool) {name : String}

/-- A name that is kept has its thing. -/
theorem get?_filter (h : keep name = true) : ∀ entries : Named α,
    get? (entries.filter fun e => keep e.1) name = entries.get? name
  | [] => rfl
  | e :: es => by
    by_cases he : e.1 = name
    · simp [get?, he, h]
    · by_cases hk : keep e.1 <;> simp [get?, he, hk, get?_filter h es]

/-- A name that is not kept has no thing. -/
theorem get?_filter_of_not (h : keep name = false) : ∀ entries : Named α,
    get? (entries.filter fun e => keep e.1) name = none
  | [] => rfl
  | e :: es => by
    by_cases hk : keep e.1
    · have he : e.1 ≠ name := by rintro rfl; rw [h] at hk; exact Bool.false_ne_true hk
      simp [get?, he, hk, get?_filter_of_not h es]
    · simp [hk, get?_filter_of_not h es]

/-- A name that is kept can be set before or after. -/
theorem filter_put (h : keep name = true) (a : α) : ∀ entries : Named α,
    (entries.put name a).filter (fun e => keep e.1) =
      put (entries.filter fun e => keep e.1) name a
  | [] => by simp [put, h]
  | e :: es => by
    by_cases he : e.1 = name
    · simp [put, he, h]
    · by_cases hk : keep e.1 <;> simp [put, he, hk, filter_put h a es]

/-- A name that is not kept need not be set. -/
theorem filter_put_of_not (h : keep name = false) (a : α) : ∀ entries : Named α,
    (entries.put name a).filter (fun e => keep e.1) = entries.filter fun e => keep e.1
  | [] => by simp [put, h]
  | e :: es => by
    by_cases he : e.1 = name
    · simp [put, he, h]
    · by_cases hk : keep e.1 <;> simp [put, he, hk, filter_put_of_not h a es]

theorem get?_put_self (a : α) : ∀ entries : Named α, (entries.put name a).get? name = some a
  | [] => by simp [put, get?]
  | e :: es => by
    by_cases he : e.1 = name
    · simp [put, get?, he]
    · rw [put, if_neg he, get?, if_neg he, get?_put_self a es]

/-- Setting a name does not change the things of others. -/
theorem get?_put_of_ne {other : String} (h : name ≠ other) (a : α) : ∀ entries : Named α,
    (entries.put name a).get? other = entries.get? other
  | [] => by simp [put, get?, h]
  | e :: es => by
    by_cases he : e.1 = name
    · simp [put, get?, he, h]
    · rw [put, if_neg he, get?, get?, get?_put_of_ne h a es]

theorem forall_get?_put {P : α → Prop} {a : α} (ha : P a) {entries : Named α}
    (h : ∀ other b, entries.get? other = some b → P b) :
    ∀ other b, (entries.put name a).get? other = some b → P b := by
  intro other b hget
  by_cases hother : name = other
  · rw [← hother, get?_put_self] at hget
    exact Option.some.inj hget ▸ ha
  · rw [get?_put_of_ne hother] at hget
    exact h other b hget

/-! ### Things among others -/

variable {entries entries' : Named α} {a : α}

theorem mem_of_get? : ∀ {entries : Named α}, entries.get? name = some a → (name, a) ∈ entries
  | [], h => by cases h
  | e :: es, h => by
    rw [get?] at h
    split at h
    · next he =>
      obtain rfl := Option.some.inj h
      exact List.mem_cons.mpr (Or.inl (Prod.ext he.symm rfl))
    · exact List.mem_cons_of_mem _ (mem_of_get? h)

theorem get?_of_mem (hnodup : entries.names.Nodup) (h : (name, a) ∈ entries) :
    entries.get? name = some a := by
  induction entries with
  | nil => cases h
  | cons e es ih =>
    obtain ⟨hnew, hrest⟩ := List.nodup_cons.mp hnodup
    rcases List.mem_cons.mp h with rfl | hmem
    · simp [get?]
    · have hne : e.1 ≠ name := by
        rintro rfl
        exact hnew (List.mem_map.mpr ⟨_, hmem, rfl⟩)
      rw [get?, if_neg hne]
      exact ih hrest hmem

theorem eq_of_mem (hnodup : entries.names.Nodup) {b : α} (ha : (name, a) ∈ entries)
    (hb : (name, b) ∈ entries) : a = b :=
  Option.some.inj ((get?_of_mem hnodup ha).symm.trans (get?_of_mem hnodup hb))

theorem get?_perm (hnodup : entries.names.Nodup) (h : entries'.Perm entries) :
    entries'.get? name = entries.get? name := by
  have hnodup' : entries'.names.Nodup := (h.map Prod.fst).nodup_iff.mpr hnodup
  ext a
  exact ⟨fun ha => get?_of_mem hnodup (h.mem_iff.mp (mem_of_get? ha)),
    fun ha => get?_of_mem hnodup' (h.mem_iff.mpr (mem_of_get? ha))⟩

theorem mem_put {e : String × α} (h : e ∈ entries.put name a) : e ∈ entries ∨ e = (name, a) := by
  induction entries with
  | nil => exact Or.inr (List.mem_singleton.mp h)
  | cons first rest ih =>
    rw [put] at h
    split at h
    · rcases List.mem_cons.mp h with rfl | hrest
      · exact Or.inr rfl
      · exact Or.inl (List.mem_cons_of_mem _ hrest)
    · rcases List.mem_cons.mp h with rfl | hrest
      · exact Or.inl List.mem_cons_self
      · exact (ih hrest).imp_left (List.mem_cons_of_mem _)

theorem mem_names_put {other : String} : ∀ {entries : Named α},
    other ∈ entries.names → other ∈ (entries.put name a).names
  | e :: es, h => by
    rw [put]
    split
    · next he => simpa [names, he] using h
    · rcases List.mem_cons.mp h with rfl | hes
      · exact List.mem_cons_self
      · exact List.mem_cons_of_mem _ (mem_names_put hes)

/-- What holds of things and of those that are set in them holds of all. -/
theorem forall_mem_putAll {P : String × α → Prop} {more : Named α}
    (h : ∀ e ∈ entries, P e) (hmore : ∀ e ∈ more, P e) : ∀ e ∈ entries.putAll more, P e := by
  induction more generalizing entries with
  | nil => exact h
  | cons first more ih =>
    obtain ⟨hfirst, hrest⟩ := List.forall_mem_cons.mp hmore
    refine ih (fun e he => ?_) hrest
    rcases mem_put he with hold | rfl
    · exact h e hold
    · exact hfirst

theorem get?_putAll_of_not_mem {more : Named α} (h : name ∉ more.names) :
    (entries.putAll more).get? name = entries.get? name := by
  induction more generalizing entries with
  | nil => rfl
  | cons e more ih =>
    obtain ⟨hfirst, hrest⟩ := not_or.mp (mt List.mem_cons.mpr h)
    exact (ih hrest).trans (get?_put_of_ne (Ne.symm hfirst) e.2 entries)

end Named

end DocGraph
