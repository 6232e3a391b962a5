import DocGraph.Category

/-! The relations between classes.

    A class extends others by name, and a name stands for the first record that has it. The chain of
    a class follows the first name that each record extends. From the chains come links: each leads
    from a class to a record that it extends or implements, directly or through others. A record's
    relations are built up from the links that lead to it. -/

namespace DocGraph

namespace Relations

/-- The first record with a long name. -/
def first? (records : List Record) (name : String) : Option Record :=
  records.find? fun r => r.longname.isText name

/-- The number of records whose long names are not in a chain. -/
def unvisited (records : List Record) (chain : List String) : Nat :=
  records.countP fun r => match r.longname with
    | .str n => !chain.contains n
    | _ => true

/-- A longer chain leaves no more records. -/
theorem unvisited_append_le (records : List Record) (chain : List String) (name : String) :
    unvisited records (chain ++ [name]) ≤ unvisited records chain := by
  refine List.countP_mono_left fun r _ h => ?_
  cases hr : r.longname <;> simp_all

/-- A chain that grows by the name of a record leaves fewer records. -/
theorem unvisited_append_lt {chain : List String} {name : String} :
    ∀ {records : List Record} {r : Record}, first? records name = some r →
      chain.contains name = false → unvisited records (chain ++ [name]) < unvisited records chain
  | [], _, h, _ => by simp [first?] at h
  | q :: qs, r, h, hc => by
    have hle := unvisited_append_le qs chain name
    by_cases hq : q.longname.isText name
    · have hn : q.longname = .str name := by
        cases hl : q.longname <;> simp_all [Value.isText]
      simp only [unvisited, List.countP_cons, hn] at hle ⊢
      simp at hc hle ⊢
      simp [hc]
      omega
    · have hrest : first? qs name = some r := by
        simpa [first?, List.find?_cons, hq] using h
      have hlt := unvisited_append_lt hrest hc
      simp only [unvisited, List.countP_cons] at hlt ⊢
      cases hl : q.longname with
      | str n =>
        have : n ≠ name := by rintro rfl; simp [Value.isText, hl] at hq
        by_cases hm : n ∈ chain <;> simp_all
      | _ => simpa using hlt

/-- Follows the first names that records extend, from `current` on, until nothing is extended, a
    name has no record, or a name comes up again. -/
def follow (records : List Record) (origin : Value) (chain : List String)
    (current : Record) : List String :=
  match current.parents with
  | none => chain
  | some [] => chain
  | some (target :: _) =>
    match _h : first? records target with
    | none => chain ++ [target]
    | some parent =>
      if _hc : origin.isText target ∨ chain.contains target then chain
      else follow records origin (chain ++ [target]) parent
termination_by unvisited records chain
decreasing_by
  exact unvisited_append_lt _h (by simp at _hc ⊢; exact _hc.2)

/-- The names of the ancestors of a record, the nearest first. -/
def chain (records : List Record) (r : Record) : List String := follow records r.longname [] r

/-- Whether a record is a class. -/
def isClass (r : Record) : Bool := r.category = Category.classes.name

/-- The interfaces that the ancestors of a record implement. -/
def inherited (records : List Record) (r : Record) : List String :=
  (chain records r).flatMap fun n => match first? records n with
    | some ancestor => ancestor.interfaces.getD []
    | none => []

/-! ### Links -/

/-- How a class depends on a record. -/
inductive LinkKind where
  | directSubclass
  | indirectSubclass
  | directImplementer
  | indirectImplementer
  deriving DecidableEq

/-- A class that depends on a record. -/
structure Link where
  /-- The identity of the record depended on. -/
  target : Int
  kind : LinkKind
  /-- The long name of the class. -/
  source : Value
  /-- The file of the class. -/
  path : Value

/-- The links from a class to the records of some names. Names without a record give none. -/
def linksTo (records : List Record) (r : Record) (kind : LinkKind) (names : List String) :
    List Link :=
  names.filterMap fun n =>
    (first? records n).map fun t => ⟨t.id, kind, r.longname, r.filePath⟩

/-- The links from a class. -/
def linksFrom (records : List Record) (r : Record) : List Link :=
  let ancestors := chain records r
  linksTo records r .directSubclass (ancestors.take 1) ++
    linksTo records r .indirectSubclass (ancestors.drop 1) ++
    linksTo records r .directImplementer (r.interfaces.getD []) ++
    linksTo records r .indirectImplementer (inherited records r)

/-- All links, in the order of the classes. -/
def links (records : List Record) : List Link :=
  (records.filter isClass).flatMap (linksFrom records)

/-! ### Relations of a record -/

/-- A list that may not have been begun, with one more item. -/
def grown {α : Type} (items : Option (List α)) (item : α) : Option (List α) :=
  some (items.getD [] ++ [item])

/-- Adds texts that are not there yet. -/
def addNew (known more : List String) : List String :=
  more.foldl (fun ks s => if ks.contains s then ks else ks ++ [s]) known

/-- Adds files to those that depend on a record. -/
def withPaths (s : Relations) (paths : List String) : Relations :=
  { s with dependentPaths := some (addNew (s.dependentPaths.getD []) paths) }

/-- Adds the class of a link to the list that its kind names. -/
def withSource (s : Relations) (l : Link) : Relations :=
  match l.kind with
  | .directSubclass => { s with directSubclasses := grown s.directSubclasses l.source }
  | .indirectSubclass => { s with indirectSubclasses := grown s.indirectSubclasses l.source }
  | .directImplementer => { s with directImplementers := grown s.directImplementers l.source }
  | .indirectImplementer => { s with indirectImplementers := grown s.indirectImplementers l.source }

/-- Changes the relations of the record of an identity. -/
def relate (id : Int) (f : Relations → Relations) (r : Record) : Record :=
  if r.id = id then { r with relations := f r.relations } else r

/-- Notes a link on the record that it leads to. -/
def note (records : List Record) (l : Link) : List Record :=
  records.map <| relate l.target fun s =>
    withPaths (withSource s l) (Record.filledText l.path).toList

/-- The first record of a file. -/
def fileRecord? (records : List Record) (path : Value) : Option Record :=
  records.find? fun r => r.category = Category.file.name && r.filePath.matchesLiteral path

/-- Passes the files that depend on a class on to the record of the file that it is in. -/
def passOn (records : List Record) (c : Record) : List Record :=
  match (c.relations.dependentPaths.bind Rule.nonEmpty), fileRecord? records c.filePath with
  | some paths, some file => records.map (relate file.id (withPaths · paths))
  | _, _ => records

/-- The names of the attributes that hold relations. -/
def attributeNames : List String :=
  ["resolved_extends_chain", "resolved_direct_subclasses", "resolved_indirect_subclasses",
    "resolved_indirect_implements", "resolved_direct_implemented",
    "resolved_indirect_implemented", "resolved_dependent_file_paths"]

/-- Whether an attribute of a name is none of these. -/
def isUnrelated (name : String) : Bool := !attributeNames.contains name

/-- The first thing that a class extends, if that is something else than a name. -/
def oddParent? (r : Record) : Option Value :=
  match r.extra.get? "extends" with
  | some (.list (.str _ :: _)) => none
  | some (.list (parent :: _)) => if isClass r then some parent else none
  | _ => none

/-- What a record has beside its fields once its relations are derived: no relations, but for the
    chain of a class that extends something without a name. -/
def besideOf (r : Record) : Named Value :=
  let rest : Named Value := r.extra.filter fun e => isUnrelated e.1
  match oddParent? r with
  | some parent => rest.put "resolved_extends_chain" (.list [parent])
  | none => rest

/-- A record with the relations that follow from its own names, and none that lead to it. -/
def begun (records : List Record) (r : Record) : Record :=
  { r with
    relations :=
      { ancestors := if isClass r then Rule.nonEmpty (chain records r).reverse else none
        inheritedInterfaces := if isClass r then Rule.nonEmpty (inherited records r) else none }
    extra := besideOf r }

/-- Derives the relations of all records anew: the links are noted one after the other, and then
    the classes pass the files that depend on them on, one after the other. -/
def deriveAll (records : List Record) : List Record :=
  let linked := (links records).foldl note (records.map (begun records))
  (linked.filter isClass).foldl passOn linked

end Relations

end DocGraph
