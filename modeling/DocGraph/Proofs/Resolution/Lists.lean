import Mathlib.Data.List.Nodup
import DocGraph.Proofs.Resolution.Marks
import DocGraph.Proofs.Resolution.Necessity

/-! The relations of the records that resolution keeps.

    Relations are derived before the marks are made, and again only if a record was removed. Either
    way the records that are kept have the relations that they would have if there had never been
    others (`settled_resolveRecords`). `Related` spells these out list by list. -/

namespace DocGraph

namespace Resolution

open Relations Visibility

/-! ### The relations are those of the records that are kept -/

theorem besideOf_congr {r q : Record} (hc : r.category = q.category) (he : r.extra = q.extra) :
    besideOf r = besideOf q :=
  besideOf_congr_filter hc (by rw [he])

theorem settled_promoteAll {records : List Record} (h : Settled records) :
    Settled (promoteAll records) := by
  have hmap := promoteAll_withoutExport records
  refine h.of_map_outline ?_ fun r hr => ?_
  · have houtline : ∀ rs : List Record, rs.map outline = (rs.map withoutExport).map outline :=
      fun rs => by
        rw [List.map_map]
        rfl
    rw [houtline, hmap, ← houtline]
  · have hmem : withoutExport r ∈ records.map withoutExport := hmap ▸ List.mem_map_of_mem hr
    obtain ⟨q, hq, hsame⟩ := List.mem_map.mp hmem
    have hextra : q.extra = r.extra := (congrArg Record.extra hsame :)
    rw [← hextra, (h q hq).2]
    exact besideOf_congr (congrArg Record.category hsame :) hextra

/-- Marks take away at most what was set against the access. -/
theorem extra_marked (settings : Settings) (records : List Record) (r : Record) :
    (marked settings records r).extra = r.extra ∨
      (marked settings records r).extra = r.extra.erase "access" := by
  have haccess : (applyAccess settings r).extra = r.extra ∨
      (applyAccess settings r).extra = r.extra.erase "access" := by
    simp only [applyAccess]
    split
    · exact Or.inl rfl
    · split <;> exact Or.inr rfl
  have hexport : ∀ q, (applyExport q).extra = q.extra := fun q => by
    rw [applyExport]
    split <;> rfl
  have hdoc : ∀ q, (applyUndocumented q).extra = q.extra := fun q => by
    rw [applyUndocumented]
    split <;> rfl
  have hown : (ownMarks settings r).extra = (applyAccess settings r).extra := by
    simp only [ownMarks]
    split <;> split <;> simp only [hexport, hdoc]
  have hmarked : (marked settings records r).extra = (ownMarks settings r).extra := by
    rw [marked]
    split <;> rfl
  rw [hmarked, hown]
  exact haccess

theorem settled_mark {settings : Settings} {records : List Record} (h : Settled records) :
    Settled (mark settings records) := by
  rw [mark_eq_map]
  refine h.of_map_outline ?_ fun m hm => ?_
  · rw [List.map_map]
    refine List.map_congr_left fun r _ => ?_
    exact (congrArg outline (unmarked_marked settings records r) :)
  · obtain ⟨r, hr, rfl⟩ := List.mem_map.mp hm
    have hcategory : (marked settings records r).category = r.category :=
      (congrArg Record.category (unmarked_marked settings records r) :)
    rcases extra_marked settings records r with he | he
    · rw [he, (h r hr).2]
      exact (besideOf_congr hcategory he).symm
    · calc (marked settings records r).extra
          = (besideOf r).erase "access" := by rw [he, ← (h r hr).2]
        _ = besideOf { r with extra := r.extra.erase "access" } :=
          (besideOf_filter (fun n => n ≠ "access") (by decide) (by decide) r).symm
        _ = besideOf (marked settings records r) :=
          (besideOf_congr (q := { r with extra := r.extra.erase "access" }) hcategory he).symm

/-- The records that resolution keeps have the relations that they have among themselves. -/
theorem settled_resolveRecords (settings : Settings) (records : List Record) :
    Settled (resolveRecords settings records) := by
  have hmarked : Settled (mark settings (prepare settings records)) :=
    settled_mark (settled_promoteAll (settled_deriveAll _))
  simp only [resolveRecords, removeIgnored]
  split
  · exact settled_deriveAll _
  · next hnot =>
    rw [sweep_eq_self hnot]
    exact hmarked

end Resolution

namespace Relations

/-! ### One list of a record -/

/-- The list of the classes that depend on a record in some way. -/
def listed : LinkKind → Relations → Option (List Value)
  | .directSubclass, s => s.directSubclasses
  | .indirectSubclass, s => s.indirectSubclasses
  | .directImplementer, s => s.directImplementers
  | .indirectImplementer, s => s.indirectImplementers

/-- The names through which a class depends on records in some way. -/
def dependsOn (records : List Record) : LinkKind → Record → List String
  | .directSubclass, c => (chain records c).take 1
  | .indirectSubclass, c => (chain records c).drop 1
  | .directImplementer, c => c.interfaces.getD []
  | .indirectImplementer, c => inherited records c

/-- Whether a name stands for the record of an identity. -/
def leadsTo (records : List Record) (r : Record) (name : String) : Bool :=
  (first? records name).map Record.id = some r.id

/-- The long names of the classes, in order, each once for every one of its names that stands for a
    record. -/
def mentions (records : List Record) (r : Record) (names : Record → List String) : List Value :=
  (records.filter isClass).flatMap fun c =>
    ((names c).filter (leadsTo records r)).map fun _ => c.longname

/-- A link adds its class to the list of its kind, on the record that it leads to. -/
theorem listed_noteIn (kind : LinkKind) (id : Int) (s : Relations) (l : Link) :
    listed kind (noteIn id s l) =
      if l.target = id && l.kind = kind then grown (listed kind s) l.source else listed kind s := by
  obtain ⟨target, kind', source, path⟩ := l
  by_cases h : id = target
  · subst h
    cases kind <;> cases kind' <;> simp [noteIn, listed, withPaths, withSource]
  · have h' : ¬ target = id := fun he => h he.symm
    simp [noteIn, h, h']

theorem foldl_grown_some {α : Type} : ∀ (items known : List α),
    items.foldl grown (some known) = some (known ++ items)
  | [], known => by rw [List.foldl_nil, List.append_nil]
  | a :: items, known => by
    rw [List.foldl_cons, grown, Option.getD_some, foldl_grown_some items, List.append_assoc]
    rfl

theorem foldl_grown_none {α : Type} : ∀ items : List α,
    items.foldl grown none = Rule.nonEmpty items
  | [] => rfl
  | a :: items => by
    rw [List.foldl_cons, grown, Option.getD_none, foldl_grown_some]
    rfl

/-- Noting links makes the list of a kind longer by the classes of the links of the kind. -/
theorem listed_foldl (kind : LinkKind) (id : Int) : ∀ (ls : List Link) (s : Relations),
    listed kind (ls.foldl (noteIn id) s) =
      ((ls.filter fun l => l.target = id && l.kind = kind).map Link.source).foldl grown
        (listed kind s)
  | [], _ => rfl
  | l :: ls, s => by
    rw [List.foldl_cons, listed_foldl kind id ls, listed_noteIn, List.filter_cons]
    split <;> rfl

/-- The links of a kind from a class to a record. -/
theorem filter_linksTo (records : List Record) (c r : Record) (kind kind' : LinkKind) :
    ∀ names : List String,
      ((linksTo records c kind' names).filter fun l => l.target = r.id && l.kind = kind).map
          Link.source =
        if kind' = kind then (names.filter (leadsTo records r)).map fun _ => c.longname else []
  | [] => by split <;> rfl
  | name :: names => by
    have ih := filter_linksTo records c r kind kind' names
    cases hf : first? records name with
    | none =>
      have hlinks : linksTo records c kind' (name :: names) = linksTo records c kind' names := by
        simp [linksTo, hf]
      rw [hlinks, ih]
      simp [leadsTo, hf]
    | some t =>
      have hlinks : linksTo records c kind' (name :: names) =
          ⟨t.id, kind', c.longname, c.filePath⟩ :: linksTo records c kind' names := by
        simp [linksTo, hf]
      have hleads : leadsTo records r name = decide (t.id = r.id) := by simp [leadsTo, hf]
      rw [hlinks, List.filter_cons, List.filter_cons, hleads]
      by_cases hk : kind' = kind
      · subst hk
        rw [if_pos rfl] at ih ⊢
        by_cases ht : t.id = r.id <;>
          simp only [ht, decide_true, decide_false, Bool.and_true, Bool.false_eq_true, if_true,
            if_false, List.map_cons, ih]
      · rw [if_neg hk] at ih ⊢
        simp only [hk, decide_false, Bool.and_false, Bool.false_eq_true, if_false, ih]

theorem filter_linksFrom (records : List Record) (c r : Record) (kind : LinkKind) :
    ((linksFrom records c).filter fun l => l.target = r.id && l.kind = kind).map Link.source =
      ((dependsOn records kind c).filter (leadsTo records r)).map fun _ => c.longname := by
  simp only [linksFrom, List.filter_append, List.map_append, filter_linksTo]
  cases kind <;> simp [dependsOn]

theorem filter_links (records : List Record) (r : Record) (kind : LinkKind) :
    ((links records).filter fun l => l.target = r.id && l.kind = kind).map Link.source =
      mentions records r (dependsOn records kind) := by
  rw [links, mentions, List.filter_flatMap, List.map_flatMap]
  simp only [filter_linksFrom]

/-! ### All relations of a record -/

/-- Relations without the files that depend on a record. -/
def withoutPaths (s : Relations) : Relations := { s with dependentPaths := none }

theorem withoutPaths_derived (records : List Record) (r : Record) :
    withoutPaths (derived records r) = withoutPaths (linked records r) := by
  have hpass : ∀ s c, withoutPaths (passIn records r.id s c) = withoutPaths s := fun s c => by
    rw [passIn]
    split
    · split <;> rfl
    · rfl
  have hfold : ∀ (cs : List Record) (s : Relations),
      withoutPaths (cs.foldl (passIn records r.id) s) = withoutPaths s := by
    intro cs
    induction cs with
    | nil => exact fun s => rfl
    | cons c cs ih => exact fun s => by rw [List.foldl_cons, ih, hpass]
  exact hfold _ _

/-- Neither links nor files change what follows from a record's own names. -/
theorem own_derived (records : List Record) (r : Record) :
    (derived records r).ancestors = (ownRelations records r).ancestors ∧
      (derived records r).inheritedInterfaces = (ownRelations records r).inheritedInterfaces := by
  have hnote : ∀ s l, (noteIn r.id s l).ancestors = s.ancestors ∧
      (noteIn r.id s l).inheritedInterfaces = s.inheritedInterfaces := fun s l => by
    obtain ⟨target, kind, source, path⟩ := l
    rw [noteIn]
    split
    · cases kind <;> exact ⟨rfl, rfl⟩
    · exact ⟨rfl, rfl⟩
  have hfold : ∀ (ls : List Link) (s : Relations),
      (ls.foldl (noteIn r.id) s).ancestors = s.ancestors ∧
        (ls.foldl (noteIn r.id) s).inheritedInterfaces = s.inheritedInterfaces := by
    intro ls
    induction ls with
    | nil => exact fun s => ⟨rfl, rfl⟩
    | cons l ls ih =>
      intro s
      rw [List.foldl_cons, (ih _).1, (ih _).2]
      exact hnote s l
  obtain ⟨hancestors, hinterfaces⟩ := hfold (links records) (ownRelations records r)
  have hpaths := withoutPaths_derived records r
  exact ⟨(congrArg Relations.ancestors hpaths :).trans hancestors,
    (congrArg Relations.inheritedInterfaces hpaths :).trans hinterfaces⟩

/-- The classes in a list of a record are those that mention it. -/
theorem listed_derived (records : List Record) (r : Record) (kind : LinkKind) :
    listed kind (derived records r) =
      Rule.nonEmpty (mentions records r (dependsOn records kind)) := by
  have hwithout : ∀ s, listed kind s = listed kind (withoutPaths s) := fun s => by
    cases kind <;> rfl
  have hown : listed kind (ownRelations records r) = none := by
    cases kind <;> rfl
  rw [hwithout, withoutPaths_derived, ← hwithout, linked, listed_foldl, hown, filter_links,
    foldl_grown_none]

theorem getD_nonEmpty {α : Type} (items : List α) : (Rule.nonEmpty items).getD [] = items := by
  cases items <;> rfl

theorem leadsTo_iff {records : List Record} (hids : (records.map Record.id).Nodup) {r : Record}
    (hr : r ∈ records) {name : String} :
    leadsTo records r name = true ↔ first? records name = some r := by
  rw [leadsTo, decide_eq_true_iff, Option.map_eq_some_iff]
  constructor
  · rintro ⟨t, ht, hid⟩
    obtain rfl := List.inj_on_of_nodup_map hids (first?_eq_some ht).1 hr hid
    exact ht
  · exact fun h => ⟨r, h, rfl⟩

/-- At most one of several names stands for a record, when every record has its own identity. -/
theorem length_filter_leadsTo {records : List Record} (hids : (records.map Record.id).Nodup)
    {r : Record} (hr : r ∈ records) {names : List String} (hnames : names.Nodup) :
    (names.filter (leadsTo records r)).length ≤ 1 := by
  have hname : ∀ n ∈ names.filter (leadsTo records r), r.longname = .str n := fun n hn =>
    (first?_eq_some ((leadsTo_iff hids hr).mp (List.mem_filter.mp hn).2)).2
  have hnodup := hnames.filter (leadsTo records r)
  match hl : names.filter (leadsTo records r) with
  | [] => exact Nat.zero_le 1
  | [_] => exact Nat.le_refl 1
  | a :: b :: rest =>
    rw [hl] at hnodup hname
    have hab : a = b := Value.str.inj ((hname a (by simp)).symm.trans (hname b (by simp)))
    exact absurd (List.mem_cons.mpr (Or.inl hab)) (List.nodup_cons.mp hnodup).1

/-- What a record says about its relations to others, when these are all there are. -/
structure Related (records : List Record) (r : Record) : Prop where
  ancestors : r.relations.ancestors =
    if isClass r then Rule.nonEmpty (chain records r).reverse else none
  directSubclasses : r.relations.directSubclasses =
    Rule.nonEmpty (mentions records r fun c => (chain records c).take 1)
  indirectSubclasses : r.relations.indirectSubclasses =
    Rule.nonEmpty (mentions records r fun c => (chain records c).drop 1)
  inheritedInterfaces : r.relations.inheritedInterfaces =
    if isClass r then
      Rule.nonEmpty ((chain records r).flatMap fun name =>
        ((first? records name).bind Record.interfaces).getD [])
    else none
  directImplementers : r.relations.directImplementers =
    Rule.nonEmpty (mentions records r fun c => c.interfaces.getD [])
  indirectImplementers : r.relations.indirectImplementers =
    Rule.nonEmpty (mentions records r fun c => c.relations.inheritedInterfaces.getD [])
  /-- A name stands for the first record that has it. -/
  leads : (records.map Record.id).Nodup → ∀ name,
    leadsTo records r name = true ↔ first? records name = some r
  /-- A class is among the subclasses of a record at most once. -/
  once : (records.map Record.id).Nodup → ∀ c,
    ((chain records c).filter (leadsTo records r)).length ≤ 1
  /-- No other relations are set against these, unless a class extends something without a name. -/
  beside : oddParent? r = none → ∀ name ∈ attributeNames, r.extra.get? name = none

theorem inherited_eq (records : List Record) (r : Record) :
    inherited records r = (chain records r).flatMap fun name =>
      ((first? records name).bind Record.interfaces).getD [] := by
  rw [inherited]
  congr 1
  funext name
  cases first? records name <;> rfl

/-- Settled records say about their relations what there is to say. -/
theorem Settled.related {records : List Record} (h : Settled records) {r : Record}
    (hr : r ∈ records) : Related records r := by
  have hlisted : ∀ kind, listed kind r.relations =
      Rule.nonEmpty (mentions records r (dependsOn records kind)) := fun kind => by
    rw [(h r hr).1, listed_derived]
  refine ⟨?_, hlisted .directSubclass, hlisted .indirectSubclass, ?_, hlisted .directImplementer,
    ?_, ?_, ?_, ?_⟩
  · rw [(h r hr).1, (own_derived records r).1]
    rfl
  · rw [(h r hr).1, (own_derived records r).2, ← inherited_eq]
    rfl
  · have hmention : mentions records r (dependsOn records .indirectImplementer) =
        mentions records r fun c => c.relations.inheritedInterfaces.getD [] := by
      refine List.flatMap_congr fun c hc => ?_
      obtain ⟨hmem, hclass⟩ := List.mem_filter.mp hc
      have hinherited : c.relations.inheritedInterfaces.getD [] = inherited records c := by
        rw [(h c hmem).1, (own_derived records c).2]
        simp only [ownRelations, hclass, if_true, getD_nonEmpty]
      simp only [hinherited]
      rfl
    rw [← hmention]
    exact hlisted .indirectImplementer
  · intro hids name
    exact leadsTo_iff hids hr
  · intro hids c
    exact length_filter_leadsTo hids hr (chain_nodup records c)
  · intro hodd name hname
    have hextra : r.extra = r.extra.filter fun e => isUnrelated e.1 := by
      conv_lhs => rw [(h r hr).2, besideOf, hodd]
    rw [hextra]
    exact Named.get?_filter_of_not isUnrelated (by simp [isUnrelated, hname]) _

end Relations

namespace Resolution

open Relations

/-- After resolution the ancestors of a record are those that a walk among the records that are kept
    meets, the relations of every record are those that it has to these records, and deriving them
    once more changes nothing. -/
theorem resolve_relations (settings : Settings) (s : Store) :
    (∀ c, Walk (resolve settings s).records c.longname [] c
        (chain (resolve settings s).records c)) ∧
      (∀ r ∈ (resolve settings s).records, Related (resolve settings s).records r) ∧
      deriveAll (resolve settings s).records = (resolve settings s).records := by
  have hsettled : Settled (resolve settings s).records := settled_resolveRecords settings s.records
  exact ⟨walk_chain _, fun _ hr => hsettled.related hr, deriveAll_of_settled hsettled⟩

/-- Two families of classes below one. In the first, the middle generation is ignored and holds a
    member; in the second, the middle generation implements an interface. -/
def generations : Store :=
  { Store.empty with
    records :=
      [{ id := 1, category := "Class", longname := .str "Base" },
        { id := 2, category := "Class", longname := .str "Middle", parents := some ["Base"],
          ignored := .bool true },
        { id := 3, category := "ClassMember", longname := .str "Middle#size" },
        { id := 4, category := "Class", longname := .str "Leaf", parents := some ["Middle"] },
        { id := 5, category := "Class", longname := .str "Shape" },
        { id := 6, category := "Class", longname := .str "Square", parents := some ["Base"],
          interfaces := some ["Shape"] },
        { id := 7, category := "Class", longname := .str "Tile", parents := some ["Square"] }] }

/-- The texts of a list that may not be there. -/
def texts (items : Option (List Value)) : List (Option String) := (items.getD []).map Value.asText?

/-- The leaf of the first family loses its tie to the base; those of the second are listed on the
    base and on the interface. -/
theorem resolve_relations_generations :
    let kept := (resolve {} generations).records
    kept.map (fun r => (r.id, r.relations.ancestors)) =
        [(1, none), (4, some ["Middle"]), (5, none), (6, some ["Base"]),
          (7, some ["Base", "Square"])] ∧
      (∃ base ∈ kept, base.id = 1 ∧ Related kept base ∧
        texts base.relations.directSubclasses = [some "Square"] ∧
        texts base.relations.indirectSubclasses = [some "Tile"]) ∧
      ∃ shape ∈ kept, shape.id = 5 ∧ Related kept shape ∧
        texts shape.relations.directImplementers = [some "Square"] ∧
        texts shape.relations.indirectImplementers = [some "Tile"] := by
  intro kept
  have hrelated : ∀ r ∈ kept, Related kept r := (resolve_relations {} generations).2.1
  have hancestors : kept.map (fun r => (r.id, r.relations.ancestors)) =
      [(1, none), (4, some ["Middle"]), (5, none), (6, some ["Base"]),
        (7, some ["Base", "Square"])] := by decide +kernel
  have hbase : ∃ base ∈ kept, base.id = 1 ∧
      texts base.relations.directSubclasses = [some "Square"] ∧
      texts base.relations.indirectSubclasses = [some "Tile"] := by decide +kernel
  have hshape : ∃ shape ∈ kept, shape.id = 5 ∧
      texts shape.relations.directImplementers = [some "Square"] ∧
      texts shape.relations.indirectImplementers = [some "Tile"] := by decide +kernel
  obtain ⟨base, hb, hid, hlists⟩ := hbase
  obtain ⟨shape, hs, hid', hlists'⟩ := hshape
  exact ⟨hancestors, ⟨base, hb, hid, hrelated base hb, hlists⟩,
    shape, hs, hid', hrelated shape hs, hlists'⟩

end Resolution

end DocGraph
