import Mathlib.Data.List.Basic
import DocGraph.Resolution.Relations

/-! The walk from a record to its ancestors.

    `Walk` states the rules of the walk: it goes to the record of the first name that a record
    extends, and ends where nothing is extended, at a name without a record, or before a name that
    it has met. There is exactly one walk from each record (`walk_chain`, `Walk.unique`), and it
    depends only on what it reads of the records (`Walk.map`). -/

namespace DocGraph

namespace Relations

/-- The first name that a record extends. -/
def firstParent? (r : Record) : Option String := (r.parents.getD []).head?

/-- The names that a walk meets from a record on, when it began at `origin` and has met `seen`. -/
inductive Walk (records : List Record) (origin : Value) :
    List String → Record → List String → Prop
  | ends {seen : List String} {r : Record} (h : firstParent? r = none) :
      Walk records origin seen r []
  | unknown {seen : List String} {r : Record} {name : String} (h : firstParent? r = some name)
      (hf : first? records name = none) : Walk records origin seen r [name]
  | met {seen : List String} {r parent : Record} {name : String} (h : firstParent? r = some name)
      (hf : first? records name = some parent) (hm : origin = .str name ∨ name ∈ seen) :
      Walk records origin seen r []
  | step {seen names : List String} {r parent : Record} {name : String}
      (h : firstParent? r = some name) (hf : first? records name = some parent)
      (ho : origin ≠ .str name) (hs : name ∉ seen)
      (hw : Walk records origin (seen ++ [name]) parent names) :
      Walk records origin seen r (name :: names)

theorem isText_iff {v : Value} {s : String} : v.isText s = true ↔ v = .str s := by
  cases v <;> simp [Value.isText]

theorem first?_eq_some {records : List Record} {name : String} {t : Record}
    (h : first? records name = some t) : t ∈ records ∧ t.longname = .str name := by
  have hname : t.longname.isText name = true := (List.find?_some h :)
  exact ⟨List.mem_of_find?_eq_some h, isText_iff.mp hname⟩

/-- Following the names that records extend is a walk. -/
theorem walk_follow (records : List Record) (origin : Value) (seen : List String) (r : Record) :
    ∃ names, follow records origin seen r = seen ++ names ∧ Walk records origin seen r names := by
  fun_induction follow records origin seen r with
  | case1 seen r h => exact ⟨[], by simp, .ends (by simp [firstParent?, h])⟩
  | case2 seen r h => exact ⟨[], by simp, .ends (by simp [firstParent?, h])⟩
  | case3 seen r name rest h hf => exact ⟨[name], rfl, .unknown (by simp [firstParent?, h]) hf⟩
  | case4 seen r name rest h parent hf hm =>
    refine ⟨[], by simp, .met (by simp [firstParent?, h]) hf ?_⟩
    rcases hm with ho | hs
    · exact Or.inl (isText_iff.mp ho)
    · exact Or.inr (by simpa using hs)
  | case5 seen r name rest h parent hf hm ih =>
    obtain ⟨names, he, hw⟩ := ih
    refine ⟨name :: names, by rw [he]; simp, .step (by simp [firstParent?, h]) hf ?_ ?_ hw⟩
    · intro ho
      exact hm (Or.inl (isText_iff.mpr ho))
    · intro hs
      exact hm (Or.inr (by simpa using hs))

/-- The ancestors of a record are those that a walk from it meets. -/
theorem walk_chain (records : List Record) (r : Record) :
    Walk records r.longname [] r (chain records r) := by
  obtain ⟨names, he, hw⟩ := walk_follow records r.longname [] r
  rw [chain, he]
  exact hw

/-- A walk has no choice. -/
theorem Walk.unique {records : List Record} {origin : Value} {seen names names' : List String}
    {r : Record} (hw : Walk records origin seen r names) (hw' : Walk records origin seen r names') :
    names = names' := by
  induction hw generalizing names' with
  | ends h => cases hw' <;> simp_all
  | unknown h hf => cases hw' <;> simp_all
  | met h hf hm => cases hw' <;> simp_all
  | step h hf ho hs _ ih =>
    cases hw' with
    | ends h' => simp_all
    | unknown h' hf' => simp_all
    | met h' hf' hm' => simp_all
    | step h' hf' _ _ hw' =>
      rw [h] at h'
      obtain rfl := Option.some.inj h'
      rw [hf] at hf'
      obtain rfl := Option.some.inj hf'
      rw [ih hw']

/-- A walk meets no name twice. -/
theorem Walk.nodup {records : List Record} {origin : Value} {seen names : List String} {r : Record}
    (hw : Walk records origin seen r names) (hseen : ∀ n ∈ seen, first? records n ≠ none) :
    names.Nodup ∧ ∀ n ∈ names, n ∉ seen := by
  induction hw with
  | ends _ => exact ⟨List.nodup_nil, by simp⟩
  | @unknown seen r name _ hf =>
    refine ⟨by simp, fun n hn hs => ?_⟩
    obtain rfl := List.mem_singleton.mp hn
    exact hseen n hs hf
  | met _ _ _ => exact ⟨List.nodup_nil, by simp⟩
  | @step seen names r parent name _ hf _ hs _ ih =>
    have hgrown : ∀ n ∈ seen ++ [name], first? records n ≠ none := by
      intro n hn
      rcases List.mem_append.mp hn with hn | hn
      · exact hseen n hn
      · obtain rfl := List.mem_singleton.mp hn
        rw [hf]
        exact Option.some_ne_none parent
    obtain ⟨hnodup, hnew⟩ := ih hgrown
    refine ⟨List.nodup_cons.mpr ⟨fun hn => hnew name hn (by simp), hnodup⟩, fun n hn hm => ?_⟩
    rcases List.mem_cons.mp hn with rfl | hn
    · exact hs hm
    · exact hnew n hn (List.mem_append_left _ hm)

/-- The ancestors of a record are different. -/
theorem chain_nodup (records : List Record) (r : Record) : (chain records r).Nodup :=
  ((walk_chain records r).nodup (by simp)).1

/-- A change of the records that keeps their names keeps which of them a name stands for. -/
theorem first?_map {f : Record → Record} (hn : ∀ q, (f q).longname = q.longname)
    (records : List Record) (name : String) :
    first? (records.map f) name = (first? records name).map f := by
  rw [first?, List.find?_map]
  simp only [Function.comp_def, hn]
  rfl

/-- A change of the records that keeps their names and parents keeps the walks. -/
theorem Walk.map {records : List Record} {origin : Value} {seen names : List String} {r : Record}
    {f : Record → Record} (hn : ∀ q, (f q).longname = q.longname)
    (hp : ∀ q, (f q).parents = q.parents) (hw : Walk records origin seen r names) :
    Walk (records.map f) origin seen (f r) names := by
  have hparent : ∀ q, firstParent? (f q) = firstParent? q := fun q => by
    rw [firstParent?, hp]
    rfl
  induction hw with
  | ends h => exact .ends (by rw [hparent, h])
  | unknown h hf => exact .unknown (by rw [hparent, h]) (by rw [first?_map hn, hf]; rfl)
  | met h hf hm => exact .met (by rw [hparent, h]) (by rw [first?_map hn, hf]; rfl) hm
  | step h hf ho hs _ ih =>
    exact .step (by rw [hparent, h]) (by rw [first?_map hn, hf]; rfl) ho hs ih

/-- The ancestors stay the same when names and parents do. -/
theorem chain_map {f : Record → Record} (hn : ∀ q, (f q).longname = q.longname)
    (hp : ∀ q, (f q).parents = q.parents) (records : List Record) (r : Record) :
    chain (records.map f) (f r) = chain records r := by
  have hw := walk_chain (records.map f) (f r)
  rw [hn] at hw
  exact hw.unique ((walk_chain records r).map hn hp)

end Relations

end DocGraph
