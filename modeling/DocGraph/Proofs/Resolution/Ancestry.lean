import Mathlib.Data.List.Chain
import Mathlib.Data.List.Nodup
import Mathlib.Data.List.Perm.Subperm
import DocGraph.Proofs.Resolution.Walk
import DocGraph.Store.Basic

/-! The ancestors of a record.

    The walk from a record has nothing that counts its turns, and the records may extend one another
    in circles, themselves, or names that nobody has. It ends since each name that it goes on from is
    the long name of a record, is not the origin's and has not been met: one record fewer is left
    every time (`Walk.length_le`). What it has met by then is read off its rules (`Walk.isChain`,
    `Walk.known`, `Walk.ne_origin`), and `chain_ancestors` puts it together. -/

namespace DocGraph

namespace Relations

/-- One name leads on to another: the record that it stands for extends the other one first. -/
def LeadsOn (records : List Record) (name next : String) : Prop :=
  ∃ q, first? records name = some q ∧ firstParent? q = some next

variable {records : List Record} {origin : Value} {seen names : List String} {r : Record}

/-! ### Names and records -/

/-- The long name of a record that is there stands for a record. -/
theorem first?_ne_none {name : String} (hr : r ∈ records) (hname : r.longname = .str name) :
    first? records name ≠ none := by
  intro hnone
  have hnot := List.find?_eq_none.mp hnone r hr
  exact hnot (isText_iff.mpr hname)

/-! ### What a walk meets -/

/-- A walk begins with the first name that its record extends. -/
theorem Walk.head (hw : Walk records origin seen r names) :
    ∀ name ∈ names.head?, firstParent? r = some name := by
  intro name hname
  cases hw with
  | ends | met => simp at hname
  | unknown h | step h =>
    obtain rfl : _ = name := by simpa using hname
    exact h

/-- Each name of a walk leads on to the next one. -/
theorem Walk.isChain (hw : Walk records origin seen r names) : names.IsChain (LeadsOn records) := by
  induction hw with
  | ends | met => exact .nil
  | unknown => exact .singleton _
  | @step seen names r parent name h hf ho hs hw ih =>
    exact List.isChain_cons.mpr ⟨fun next hnext => ⟨parent, hf, hw.head next hnext⟩, ih⟩

/-- Only the last name of a walk can be without a record. -/
theorem Walk.known (hw : Walk records origin seen r names) :
    ∀ name ∈ names.dropLast, first? records name ≠ none := by
  induction hw with
  | ends | met | unknown => simp
  | @step seen names r parent name h hf ho hs hw ih =>
    cases names with
    | nil => simp
    | cons next rest =>
      rw [List.dropLast_cons_cons, List.forall_mem_cons]
      exact ⟨hf ▸ Option.some_ne_none parent, ih⟩

/-- A walk does not come back to where it began, if that has a record. -/
theorem Walk.ne_origin (hw : Walk records origin seen r names)
    (ho : ∀ name, origin = .str name → first? records name ≠ none) :
    ∀ name ∈ names, origin ≠ .str name := by
  induction hw with
  | ends | met => simp
  | unknown h hf => exact List.forall_mem_singleton.mpr fun heq => ho _ heq hf
  | step h hf hne hs hw ih => exact List.forall_mem_cons.mpr ⟨hne, ih⟩

/-- A walk is no longer than there are records: its names but the last are long names of records,
    and its origin is one more. -/
theorem Walk.length_le (hw : Walk records r.longname [] r names) (hr : r ∈ records) :
    names.length ≤ records.length := by
  have hknown : r.longname :: names.dropLast.map Value.str ⊆ records.map Record.longname := by
    refine List.cons_subset.mpr ⟨List.mem_map_of_mem hr, ?_⟩
    intro v hv
    obtain ⟨name, hname, rfl⟩ := List.mem_map.mp hv
    obtain ⟨q, hq⟩ := Option.ne_none_iff_exists'.mp (hw.known name hname)
    obtain ⟨hmem, hlongname⟩ := first?_eq_some hq
    exact hlongname ▸ List.mem_map_of_mem hmem
  have hnodup : (r.longname :: names.dropLast.map Value.str).Nodup := by
    have hnames := (hw.nodup (by simp)).1.sublist names.dropLast_sublist
    refine List.nodup_cons.mpr ⟨fun hmem => ?_, hnames.map fun _ _ => Value.str.inj⟩
    obtain ⟨name, hname, heq⟩ := List.mem_map.mp hmem
    exact hw.ne_origin (fun _ => first?_ne_none hr) name (names.dropLast_subset hname) heq.symm
  have hle := (List.subperm_of_subset hnodup hknown).length_le
  simp only [List.length_cons, List.length_map, List.length_dropLast] at hle
  omega

/-- From every record of a store, whatever the records extend, the walk to its ancestors comes to an
    end, to one end only, and after no more names than there are records. The names are different and
    none is the long name of the record. The first is the first that the record extends, and each of
    the others the first that the record of the one before it extends. All names but the last have a
    record. -/
theorem chain_ancestors (s : Store) (r : Record) (hr : r ∈ s.records) :
    let names := chain s.records r
    Walk s.records r.longname [] r names ∧
      (∀ others, Walk s.records r.longname [] r others → others = names) ∧
      names.length ≤ s.records.length ∧
      names.Nodup ∧
      (∀ name ∈ names, r.longname ≠ .str name) ∧
      (∀ name ∈ names.head?, firstParent? r = some name) ∧
      names.IsChain (LeadsOn s.records) ∧
      ∀ name ∈ names.dropLast, first? s.records name ≠ none := by
  intro names
  have hw : Walk s.records r.longname [] r names := walk_chain s.records r
  exact ⟨hw, fun _ h => h.unique hw, hw.length_le hr, chain_nodup s.records r,
    hw.ne_origin fun _ => first?_ne_none hr, hw.head, hw.isChain, hw.known⟩

/-- A class below two that extend each other, one that extends itself, and one of a name that has
    come up already, which extends a name without a record. -/
def tangle : Store :=
  { Store.empty with
    records := [{ id := 0, category := "Class", longname := .str "A", parents := some ["B"] },
      { id := 1, category := "Class", longname := .str "B", parents := some ["C"] },
      { id := 2, category := "Class", longname := .str "C", parents := some ["B"] },
      { id := 3, category := "Class", longname := .str "D", parents := some ["D"] },
      { id := 4, category := "Class", longname := .str "D", parents := some ["Gone"] }] }

/-- Where the walks from these classes lead; the first one comes into the circle from outside. -/
theorem chain_ancestors_tangle :
    tangle.records.map (chain tangle.records) = [["B", "C"], ["C"], ["B"], [], ["Gone"]] ∧
      ∃ r ∈ tangle.records, chain tangle.records r = ["B", "C"] ∧
        (chain tangle.records r).length ≤ tangle.records.length ∧
        (∀ name ∈ chain tangle.records r, r.longname ≠ .str name) ∧
        (chain tangle.records r).IsChain (LeadsOn tangle.records) := by
  have hchains : tangle.records.map (chain tangle.records) =
      [["B", "C"], ["C"], ["B"], [], ["Gone"]] := by decide +kernel
  have hmem : tangle.records.head (by decide) ∈ tangle.records := List.head_mem _
  obtain ⟨-, -, hlength, -, hother, -, hleads, -⟩ := chain_ancestors tangle _ hmem
  exact ⟨hchains, _, hmem, (List.cons.inj hchains).1, hlength, hother, hleads⟩

end Relations

end DocGraph
