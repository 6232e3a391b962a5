import Mathlib.Data.List.Basic
import DocGraph.Proofs.Resolution.Walk

/-! The relations of one record, among all that are derived together.

    Deriving notes links and passes files on in place, over all records at once. `derived` is what
    this comes to for a single record: it starts with the relations of the record's own names, and
    takes the links and the files that are meant for it. `deriveAll_eq_map` says that nothing else
    happens. Both read only a part of a record, its `skeleton`, which no pass but the first changes,
    so records that stand as they were derived (`Settled`) keep doing so
    (`deriveAll_of_settled`). -/

namespace DocGraph

namespace Relations

/-! ### Record by record -/

/-- The relations that follow from a record's own names. -/
def ownRelations (records : List Record) (r : Record) : Relations :=
  { ancestors := if isClass r then Rule.nonEmpty (chain records r).reverse else none
    inheritedInterfaces := if isClass r then Rule.nonEmpty (inherited records r) else none }

/-- A record with other relations. -/
def dressed (g : Record → Relations) (r : Record) : Record :=
  { r with relations := g r, extra := besideOf r }

/-- What a link adds to the relations of the record of an identity. -/
def noteIn (id : Int) (s : Relations) (l : Link) : Relations :=
  if id = l.target then withPaths (withSource s l) (Record.filledText l.path).toList else s

/-- What a class passes on to the record of an identity. -/
def passIn (records : List Record) (id : Int) (s : Relations) (c : Record) : Relations :=
  match c.relations.dependentPaths.bind Rule.nonEmpty, fileRecord? records c.filePath with
  | some paths, some file => if id = file.id then withPaths s paths else s
  | _, _ => s

/-- The relations of a record once all links are noted. -/
def linked (records : List Record) (r : Record) : Relations :=
  (links records).foldl (noteIn r.id) (ownRelations records r)

/-- The relations of a record in the end. -/
def derived (records : List Record) (r : Record) : Relations :=
  ((records.map (dressed (linked records))).filter isClass).foldl (passIn records r.id)
    (linked records r)

/-- Noting links in place changes each record by the links that lead to it. -/
theorem foldl_note_map (records : List Record) : ∀ (ls : List Link) (g : Record → Relations),
    ls.foldl note (records.map (dressed g)) =
      records.map (dressed fun r => ls.foldl (noteIn r.id) (g r))
  | [], _ => rfl
  | l :: ls, g => by
    have hstep : note (records.map (dressed g)) l =
        records.map (dressed fun r => noteIn r.id (g r) l) := by
      rw [note, List.map_map]
      refine List.map_congr_left fun r _ => ?_
      by_cases h : r.id = l.target <;> simp [dressed, relate, noteIn, h]
    rw [List.foldl_cons, hstep, foldl_note_map records ls]
    rfl

/-- Other relations do not change which record is that of a file. -/
theorem fileRecord?_dressed (records : List Record) (g : Record → Relations) (path : Value) :
    fileRecord? (records.map (dressed g)) path = (fileRecord? records path).map (dressed g) := by
  rw [fileRecord?, List.find?_map]
  rfl

/-- Passing files on in place changes each record by the classes that pass theirs on to it. -/
theorem foldl_passOn_map (records : List Record) : ∀ (cs : List Record) (g : Record → Relations),
    cs.foldl passOn (records.map (dressed g)) =
      records.map (dressed fun r => cs.foldl (passIn records r.id) (g r))
  | [], _ => rfl
  | c :: cs, g => by
    have hstep : passOn (records.map (dressed g)) c =
        records.map (dressed fun r => passIn records r.id (g r) c) := by
      rw [passOn, fileRecord?_dressed]
      cases hp : c.relations.dependentPaths.bind Rule.nonEmpty with
      | none => simp [passIn, hp]
      | some paths =>
        cases hf : fileRecord? records c.filePath with
        | none => simp [passIn, hp, hf]
        | some file =>
          simp only [Option.map_some, List.map_map]
          refine List.map_congr_left fun r _ => ?_
          by_cases h : r.id = file.id <;> simp [dressed, relate, passIn, hp, hf, h]
    rw [List.foldl_cons, hstep, foldl_passOn_map records cs]
    rfl

/-- Deriving gives every record the relations that are meant for it, and changes nothing else but
    what stands beside its fields. -/
theorem deriveAll_eq_map (records : List Record) :
    deriveAll records = records.map (dressed (derived records)) := by
  have hlinked : (links records).foldl note (records.map (begun records)) =
      records.map (dressed (linked records)) := foldl_note_map records _ (ownRelations records)
  rw [deriveAll, hlinked]
  exact foldl_passOn_map records _ (linked records)

/-! ### What deriving reads -/

/-- The part of a record that deriving reads, apart from what stands beside its fields. -/
def skeleton (r : Record) : Record :=
  { id := r.id, category := r.category, longname := r.longname, filePath := r.filePath,
    parents := r.parents, interfaces := r.interfaces }

theorem first?_skeleton (records : List Record) (name : String) :
    first? (records.map skeleton) name = (first? records name).map skeleton :=
  first?_map (f := skeleton) (fun _ => rfl) records name

theorem chain_skeleton (records : List Record) (r : Record) :
    chain (records.map skeleton) (skeleton r) = chain records r :=
  chain_map (f := skeleton) (fun _ => rfl) (fun _ => rfl) records r

theorem inherited_skeleton (records : List Record) (r : Record) :
    inherited (records.map skeleton) (skeleton r) = inherited records r := by
  rw [inherited, inherited, chain_skeleton]
  congr 1
  funext name
  rw [first?_skeleton]
  cases first? records name <;> rfl

theorem linksTo_skeleton (records : List Record) (r : Record) (kind : LinkKind)
    (names : List String) :
    linksTo (records.map skeleton) (skeleton r) kind names = linksTo records r kind names := by
  rw [linksTo, linksTo]
  congr 1
  funext name
  rw [first?_skeleton, Option.map_map]
  rfl

theorem linksFrom_skeleton (records : List Record) (r : Record) :
    linksFrom (records.map skeleton) (skeleton r) = linksFrom records r := by
  simp only [linksFrom, chain_skeleton, inherited_skeleton, linksTo_skeleton]
  rfl

theorem links_skeleton (records : List Record) : links (records.map skeleton) = links records := by
  have hclass : isClass ∘ skeleton = isClass := rfl
  rw [links, List.filter_map, hclass, List.flatMap_map]
  simp only [linksFrom_skeleton]
  rfl

theorem linked_skeleton (records : List Record) (r : Record) :
    linked (records.map skeleton) (skeleton r) = linked records r := by
  have hown : ownRelations (records.map skeleton) (skeleton r) = ownRelations records r := by
    rw [ownRelations, chain_skeleton, inherited_skeleton]
    rfl
  rw [linked, links_skeleton, hown]
  rfl

/-- What a class passes on depends on its own relations and file only. -/
theorem passIn_skeleton (records : List Record) (id : Int) (s : Relations) (r : Record) :
    passIn (records.map skeleton) id s (dressed (linked (records.map skeleton)) (skeleton r)) =
      passIn records id s (dressed (linked records) r) := by
  have hfile : fileRecord? (records.map skeleton) r.filePath =
      (fileRecord? records r.filePath).map skeleton := by
    rw [fileRecord?, List.find?_map]
    rfl
  simp only [passIn, dressed, linked_skeleton]
  rw [show (skeleton r).filePath = r.filePath from rfl, hfile]
  cases (linked records r).dependentPaths.bind Rule.nonEmpty <;>
    cases fileRecord? records r.filePath <;> rfl

theorem derived_skeleton (records : List Record) (r : Record) :
    derived (records.map skeleton) (skeleton r) = derived records r := by
  have hclasses : ∀ (rs : List Record) (g : Record → Relations),
      (rs.map (dressed g)).filter isClass = (rs.filter isClass).map (dressed g) := fun rs g => by
    rw [List.filter_map]
    rfl
  rw [derived, derived, hclasses, hclasses, List.filter_map, List.foldl_map, List.foldl_map,
    List.foldl_map, linked_skeleton]
  simp only [passIn_skeleton]
  rfl

/-- Records that agree in what deriving reads have the same relations. -/
theorem derived_congr {records records' : List Record} {r r' : Record}
    (h : records.map skeleton = records'.map skeleton) (hr : skeleton r = skeleton r') :
    derived records r = derived records' r' := by
  rw [← derived_skeleton, h, hr, derived_skeleton]

/-! ### What stands beside the fields -/

/-- Attributes without meaning for the relations can be taken away before or after. -/
theorem besideOf_filter (keep : String → Bool) (hp : keep "extends" = true)
    (hc : keep "resolved_extends_chain" = true) (r : Record) :
    besideOf { r with extra := r.extra.filter fun e => keep e.1 } =
      (besideOf r).filter fun e => keep e.1 := by
  have hodd : oddParent? { r with extra := r.extra.filter fun e => keep e.1 } = oddParent? r := by
    simp only [oddParent?, Named.get?_filter keep hp]
    rfl
  have hrest : (r.extra.filter fun e => keep e.1).filter (fun e => isUnrelated e.1) =
      (r.extra.filter fun e => isUnrelated e.1).filter fun e => keep e.1 := by
    rw [List.filter_filter, List.filter_filter]
    simp only [Bool.and_comm]
  rw [besideOf, hodd, besideOf]
  cases oddParent? r with
  | none => exact hrest
  | some parent => simp only [hrest, Named.filter_put keep hc]

/-- Deriving leaves nothing of earlier relations. -/
theorem filter_besideOf (r : Record) :
    (besideOf r).filter (fun e => isUnrelated e.1) = r.extra.filter fun e => isUnrelated e.1 := by
  have hdrop : isUnrelated "resolved_extends_chain" = false := by decide
  rw [besideOf]
  cases oddParent? r with
  | none => simp only [List.filter_filter, Bool.and_self]
  | some parent =>
    simp only [Named.filter_put_of_not isUnrelated hdrop, List.filter_filter, Bool.and_self]

/-- Deriving does not change what stands beside the fields but is no relation. -/
theorem get?_besideOf {name : String} (h : isUnrelated name = true) (r : Record) :
    (besideOf r).get? name = r.extra.get? name := by
  rw [← Named.get?_filter isUnrelated h, filter_besideOf, Named.get?_filter isUnrelated h]

/-- What stands beside the fields in the end depends on nothing but what was no relation. -/
theorem besideOf_congr_filter {r r' : Record} (hcategory : r.category = r'.category)
    (h : (r.extra.filter fun e => isUnrelated e.1) = r'.extra.filter fun e => isUnrelated e.1) :
    besideOf r = besideOf r' := by
  have hextends : r.extra.get? "extends" = r'.extra.get? "extends" := by
    have hkeep : isUnrelated "extends" = true := by decide
    rw [← Named.get?_filter isUnrelated hkeep, h, Named.get?_filter isUnrelated hkeep]
  have hodd : oddParent? r = oddParent? r' := by
    rw [oddParent?, hextends, isClass, hcategory]
    rfl
  simp only [besideOf, hodd, h]

/-- Deriving again leaves the same beside the fields. -/
theorem besideOf_dressed (g : Record → Relations) (r : Record) :
    besideOf (dressed g r) = besideOf r :=
  besideOf_congr_filter rfl (filter_besideOf r)

/-! ### Records that stand as they were derived -/

/-- Every record has the relations that deriving gives it. -/
def Settled (records : List Record) : Prop :=
  ∀ r ∈ records, r.relations = derived records r ∧ r.extra = besideOf r

theorem settled_deriveAll (records : List Record) : Settled (deriveAll records) := by
  have hskel : (deriveAll records).map skeleton = records.map skeleton := by
    rw [deriveAll_eq_map, List.map_map]
    rfl
  intro r hr
  rw [deriveAll_eq_map] at hr
  obtain ⟨q, _, rfl⟩ := List.mem_map.mp hr
  exact ⟨derived_congr hskel.symm rfl, (besideOf_dressed _ q).symm⟩

/-- Deriving the relations of settled records changes nothing. -/
theorem deriveAll_of_settled {records : List Record} (h : Settled records) :
    deriveAll records = records := by
  rw [deriveAll_eq_map]
  conv_rhs => rw [← List.map_id records]
  refine List.map_congr_left fun r hr => ?_
  obtain ⟨hrel, hextra⟩ := h r hr
  rw [dressed, ← hrel, ← hextra]
  rfl

/-- What deriving reads of a record and the relations that it has. -/
def outline (r : Record) : Record × Relations := (skeleton r, r.relations)

/-- Changes that touch neither what deriving reads nor what it writes leave records settled. -/
theorem Settled.of_map_outline {records records' : List Record} (h : Settled records)
    (ho : records'.map outline = records.map outline)
    (hb : ∀ r ∈ records', r.extra = besideOf r) : Settled records' := by
  have hskel : records'.map skeleton = records.map skeleton := by
    have hfst : ∀ rs : List Record, rs.map skeleton = (rs.map outline).map Prod.fst := fun rs => by
      rw [List.map_map]
      rfl
    rw [hfst, hfst, ho]
  intro r hr
  have hmem : outline r ∈ records.map outline := ho ▸ List.mem_map_of_mem hr
  obtain ⟨q, hq, hsame⟩ := List.mem_map.mp hmem
  obtain ⟨hs, hrel⟩ := Prod.mk.inj hsame
  refine ⟨?_, hb r hr⟩
  rw [← hrel, (h q hq).1]
  exact derived_congr hskel.symm hs

end Relations

end DocGraph
