import Mathlib.Data.List.TakeWhile
import DocGraph.Intake
import DocGraph.Proofs.Resolution.Lists
import DocGraph.Resolution.CommonPath

/-! What names refer to once the shared directory is dropped.

    The directory is dropped record by record, and only from records that have a file. So a name may
    be shortened where it is used but not where it is given, or the other way round, and a shortened
    name may be one that another record has already. `Misled` lists the ways in which a reference
    then leads elsewhere, and `remove_preserved_iff` says that there are no others. -/

namespace DocGraph

namespace Text

theorem startsWith_iff {s head : String} :
    startsWith s head = true ↔ ∃ rest, s = head ++ rest := by
  rw [startsWith, List.isPrefixOf_iff_prefix]
  constructor
  · rintro ⟨rest, hrest⟩
    refine ⟨String.ofList rest, String.toList_inj.mp ?_⟩
    rw [String.toList_append, String.toList_ofList, hrest]
  · rintro ⟨rest, rfl⟩
    rw [String.toList_append]
    exact List.prefix_append ..

end Text

namespace CommonPath

open Relations

/-! ### Dropping the head of a name -/

theorem strip_append (head rest : String) : strip head (head ++ rest) = rest := by
  rw [strip, if_pos (Text.startsWith_iff.mpr ⟨rest, rfl⟩), Text.dropChars, Text.onText,
    String.toList_append, ← String.length_toList, List.drop_left, String.ofList_toList]

theorem strip_of_not {head name : String} (h : Text.startsWith name head = false) :
    strip head name = name := by
  rw [strip, h, if_neg Bool.false_ne_true]

theorem strip_eq_iff {head name short : String} :
    strip head name = short ↔
      name = head ++ short ∨ name = short ∧ Text.startsWith name head = false := by
  by_cases h : Text.startsWith name head = true
  · obtain ⟨rest, rfl⟩ := Text.startsWith_iff.mp h
    simp [strip_append, h]
  · rw [Bool.not_eq_true] at h
    have hne : name ≠ head ++ short := by
      rintro rfl
      exact absurd (h.symm.trans (Text.startsWith_iff.mpr ⟨short, rfl⟩)) Bool.false_ne_true
    simp [strip_of_not h, h, hne]

theorem strip_eq_self_iff {head name : String} :
    strip head name = name ↔ head = "" ∨ Text.startsWith name head = false := by
  rw [strip_eq_iff]
  have hself : name = head ++ name ↔ head = "" := by
    rw [← String.toList_inj, String.toList_append, List.self_eq_append_left, String.toList_eq_nil_iff]
  simp [hself]

/-! ### Names in a record -/

/-- The names that a record refers to others by. -/
def references (r : Record) : List String := r.parents.getD [] ++ r.interfaces.getD []

/-- The names in a record that a head is dropped from. -/
def namesIn (r : Record) : List String :=
  [r.longname, r.memberof, r.name].filterMap Value.asText? ++
    (references r ++ r.testTargets.getD [])

/-- A record in which no name changes does not change. -/
theorem stripRecord_eq_self {head : String} {r : Record}
    (h : ∀ name ∈ namesIn r, strip head name = name) : stripRecord head r = r := by
  have hvalue : ∀ v ∈ [r.longname, r.memberof, r.name], stripValue head v = v := by
    intro v hv
    cases v with
    | str s =>
      have hs : s ∈ namesIn r := List.mem_append_left _ (List.mem_filterMap.mpr ⟨_, hv, rfl⟩)
      rw [stripValue, h s hs]
    | _ => rfl
  have hlist : ∀ o ∈ [r.parents, r.interfaces, r.testTargets],
      (o.map fun names => names.map (strip head)) = o := by
    intro o ho
    cases o with
    | none => rfl
    | some names =>
      have hnames : ∀ name ∈ names, strip head name = name := by
        intro name hname
        refine h name (List.mem_append_right _ ?_)
        simp only [references, List.mem_append]
        simp only [List.mem_cons, List.not_mem_nil, or_false] at ho
        rcases ho with ho | ho | ho <;> simp [← ho, hname]
      rw [Option.map_some, List.map_congr_left hnames, List.map_id']
  rw [stripRecord, hvalue r.longname (by simp), hvalue r.memberof (by simp),
    hvalue r.name (by simp), hlist r.parents (by simp), hlist r.interfaces (by simp),
    hlist r.testTargets (by simp)]

theorem getD_map_strip (head : String) (o : Option (List String)) :
    (o.map fun names => names.map (strip head)).getD [] = (o.getD []).map (strip head) := by
  cases o <;> rfl

theorem references_stripRecord (head : String) (r : Record) :
    references (stripRecord head r) = (references r).map (strip head) := by
  rw [references, stripRecord, getD_map_strip, getD_map_strip, ← List.map_append, references]

theorem namesIn_stripRecord (head : String) (r : Record) :
    namesIn (stripRecord head r) = (namesIn r).map (strip head) := by
  have htext : ∀ v, (stripValue head v).asText? = v.asText?.map (strip head) := by
    intro v
    cases v <;> rfl
  have hvalues : [stripValue head r.longname, stripValue head r.memberof,
      stripValue head r.name].filterMap Value.asText? =
        ([r.longname, r.memberof, r.name].filterMap Value.asText?).map (strip head) := by
    rw [List.map_filterMap]
    simp only [← htext]
    exact List.filterMap_map (l := [r.longname, r.memberof, r.name]) ..
  rw [namesIn, references_stripRecord, namesIn, List.map_append, List.map_append, ← hvalues,
    ← getD_map_strip]
  rfl

/-! ### Records without the shared directory -/

/-- Whether the names in a record hold the path of its file. -/
def inFile (r : Record) : Bool := (pathOf r).isSome

/-- A record once `head` is dropped. -/
def shortened (head : String) (r : Record) : Record :=
  if inFile r then stripRecord head r else r

theorem remove_eq_map (records : List Record) :
    remove records = records.map (shortened (common records)) := by
  simp only [remove]
  split
  · next h =>
    have hsame : ∀ r, shortened (common records) r = r := by
      intro r
      have hempty : ∀ name, strip (common records) name = name := fun name =>
        strip_eq_self_iff.mpr (Or.inl (String.isEmpty_iff.mp h))
      rw [shortened, stripRecord_eq_self fun name _ => hempty name, ite_self]
    rw [List.map_congr_left fun r _ => hsame r, List.map_id']
  · rfl

/-! ### References -/

/-- What becomes of a name that a record has or refers to another by. -/
def referred (head : String) (r : Record) (name : String) : String :=
  if inFile r then strip head name else name

theorem referred_of_inFile {head : String} {r : Record} (h : inFile r = true) :
    referred head r = strip head := by
  funext name
  rw [referred, if_pos h]

theorem referred_of_not_inFile {head : String} {r : Record} (h : ¬ inFile r = true) :
    referred head r = id := by
  funext name
  rw [referred, if_neg h, id]

/-- A name becomes itself, unless it is shortened. -/
theorem referred_eq_iff {head name short : String} {r : Record} :
    referred head r name = short ↔
      name = short ∧ (inFile r = true → Text.startsWith name head = false) ∨
        inFile r = true ∧ name = head ++ short := by
  rw [referred]
  by_cases hfile : inFile r = true
  · simp only [hfile, if_true, forall_const, true_and]
    rw [strip_eq_iff, or_comm]
  · simp [hfile]

/-- A name becomes the same in two records if it is shortened in both or in none. -/
theorem referred_eq_referred_iff {head name : String} {q r : Record} :
    referred head q name = referred head r name ↔
      inFile q = inFile r ∨ head = "" ∨ Text.startsWith name head = false := by
  rw [← strip_eq_self_iff, referred, referred]
  cases inFile q <;> cases inFile r <;> simp [eq_comm]

theorem longname_shortened {head name : String} {r : Record} (h : r.longname = .str name) :
    (shortened head r).longname = .str (referred head r name) := by
  rw [shortened, referred]
  split
  · rw [stripRecord, h, stripValue]
  · exact h

theorem longname_shortened_iff {head short : String} {r : Record} :
    (shortened head r).longname = .str short ↔
      ∃ name, r.longname = .str name ∧ referred head r name = short := by
  constructor
  · intro h
    cases hlong : r.longname with
    | str name =>
      rw [longname_shortened hlong, Value.str.injEq] at h
      exact ⟨name, rfl, h⟩
    | _ =>
      rw [shortened] at h
      split at h <;> simp [stripRecord, hlong, stripValue] at h
  · rintro ⟨name, hlong, rfl⟩
    exact longname_shortened hlong

theorem references_shortened (head : String) (r : Record) :
    references (shortened head r) = (references r).map (referred head r) := by
  rw [shortened]
  split
  · next h => rw [referred_of_inFile h, references_stripRecord]
  · next h => rw [referred_of_not_inFile h, List.map_id]

theorem namesIn_shortened (head : String) (r : Record) :
    namesIn (shortened head r) = (namesIn r).map (referred head r) := by
  rw [shortened]
  split
  · next h => rw [referred_of_inFile h, namesIn_stripRecord]
  · next h => rw [referred_of_not_inFile h, List.map_id]

/-- The place of the record that a name stands for. -/
def position? (records : List Record) (name : String) : Option Nat :=
  records.findIdx? fun r => r.longname.isText name

/-- The records in front of the one that a name stands for; all, if it stands for none. -/
def before (records : List Record) (name : String) : List Record :=
  records.takeWhile fun r => !r.longname.isText name

/-- A name by which a record refers to another stands for the same record, or for none, before and
    after the shared directory is dropped. -/
def Preserved (records : List Record) (r : Record) (name : String) : Prop :=
  position? (remove records) (referred (common records) r name) = position? records name

instance (records : List Record) (r : Record) (name : String) :
    Decidable (Preserved records r name) := inferInstanceAs (Decidable (_ = _))

/-- How a name by which a record refers to another comes to stand for something else. -/
inductive Misled (head : String) (records : List Record) (r : Record) (name : String) : Prop
  /-- Only one of the two records is in a file, so the name is shortened in one of them only. -/
  | parted {q : Record} (hq : first? records name = some q) (hfile : inFile q ≠ inFile r)
      (hhead : head ≠ "") (hname : Text.startsWith name head = true)
  /-- The name stays as it is, and an earlier record is shortened to it. -/
  | taken {q : Record} (hq : q ∈ before records name) (hfile : inFile q = true)
      (hlong : q.longname = .str (head ++ name))
      (hstays : inFile r = true → Text.startsWith name head = false)
  /-- The name is shortened to that of an earlier record, which keeps its name. -/
  | met {q : Record} {rest : String} (hq : q ∈ before records name) (hfile : inFile r = true)
      (hname : name = head ++ rest) (hlong : q.longname = .str rest)
      (hstays : inFile q = true → Text.startsWith rest head = false)

/-- Two searches stop at the same place if no item in front of where the first one stops is found by
    the second, and the item where it stops is. -/
theorem findIdx?_eq_iff {α : Type} {p p' : α → Bool} : ∀ {items : List α},
    items.findIdx? p' = items.findIdx? p ↔
      (∀ a ∈ items.takeWhile (fun a => !p a), p' a = false) ∧
        ∀ a, items.find? p = some a → p' a = true
  | [] => by simp
  | a :: items => by
    rw [List.findIdx?_cons, List.findIdx?_cons, List.takeWhile_cons, List.find?_cons]
    by_cases hp : p a = true
    · by_cases hp' : p' a = true <;> simp [hp, hp']
    · rw [Bool.not_eq_true] at hp
      by_cases hp' : p' a = true
      · cases hrest : items.findIdx? p <;> simp [hp, hp']
      · rw [Bool.not_eq_true] at hp'
        have hrest : (items.findIdx? p').map (· + 1) = (items.findIdx? p).map (· + 1) ↔ _ :=
          (Option.map_inj_right fun _ _ => Nat.succ.inj).trans findIdx?_eq_iff
        simpa [hp, hp'] using hrest

theorem preserved_iff {records : List Record} {r : Record} {name : String} :
    Preserved records r name ↔
      (∀ q ∈ before records name, (shortened (common records) q).longname ≠
        .str (referred (common records) r name)) ∧
      ∀ q, first? records name = some q → (shortened (common records) q).longname =
        .str (referred (common records) r name) := by
  rw [Preserved, position?, remove_eq_map, List.findIdx?_map, position?, findIdx?_eq_iff]
  simp only [Function.comp_apply, ← Bool.not_eq_true, isText_iff]
  rfl

theorem longname_ne_of_mem_before {records : List Record} {name : String} {q : Record}
    (h : q ∈ before records name) : q.longname ≠ .str name := by
  rw [before] at h
  have hnot := List.mem_takeWhile_imp h
  rwa [Bool.not_eq_true', ← Bool.not_eq_true, isText_iff] at hnot

/-- A reference that leads elsewhere is misled. -/
theorem misled_of_not_preserved {records : List Record} {r : Record} {name : String}
    (h : ¬ Preserved records r name) : Misled (common records) records r name := by
  rw [preserved_iff, not_and_or] at h
  push Not at h
  rcases h with ⟨q, hq, hlong⟩ | ⟨q, hq, hlong⟩
  · -- an earlier record has what the name becomes: it kept its name, or was shortened to it
    have hne := longname_ne_of_mem_before hq
    have hreferred := referred_eq_iff.mp (Eq.refl (referred (common records) r name))
    obtain ⟨other, hother, hbecomes⟩ := longname_shortened_iff.mp hlong
    rcases referred_eq_iff.mp hbecomes with ⟨rfl, hstays⟩ | ⟨hfile, rfl⟩
    · rcases hreferred with ⟨hsame, _⟩ | ⟨hr, hname⟩
      · exact absurd (hsame ▸ hother) hne
      · exact .met hq hr hname hother hstays
    · rcases hreferred with ⟨hsame, hr⟩ | ⟨_, hname⟩
      · exact .taken hq hfile (hsame ▸ hother) hr
      · exact absurd (hname ▸ hother) hne
  · -- the record that the name stood for does not have what the name becomes
    rw [longname_shortened (first?_eq_some hq).2, ne_eq, Value.str.injEq, referred_eq_referred_iff,
      not_or, not_or, Bool.not_eq_false] at hlong
    exact .parted hq hlong.1 hlong.2.1 hlong.2.2

/-- A reference that is misled leads elsewhere. -/
theorem Misled.not_preserved {records : List Record} {r : Record} {name : String}
    (h : Misled (common records) records r name) : ¬ Preserved records r name := by
  rw [preserved_iff, not_and_or]
  push Not
  cases h with
  | @parted q hq hfile hhead hname =>
    refine Or.inr ⟨q, hq, ?_⟩
    rw [longname_shortened (first?_eq_some hq).2, ne_eq, Value.str.injEq, referred_eq_referred_iff,
      not_or, not_or, Bool.not_eq_false]
    exact ⟨hfile, hhead, hname⟩
  | @taken q hq hfile hlong hstays =>
    have hsame : referred (common records) r name = name :=
      referred_eq_iff.mpr (Or.inl ⟨rfl, hstays⟩)
    have hbecomes : referred (common records) q (common records ++ name) = name :=
      referred_eq_iff.mpr (Or.inr ⟨hfile, rfl⟩)
    rw [hsame]
    exact Or.inl ⟨q, hq, longname_shortened_iff.mpr ⟨_, hlong, hbecomes⟩⟩
  | @met q rest hq hfile hname hlong hstays =>
    have hshort : referred (common records) r name = rest :=
      referred_eq_iff.mpr (Or.inr ⟨hfile, hname⟩)
    have hbecomes : referred (common records) q rest = rest :=
      referred_eq_iff.mpr (Or.inl ⟨rfl, hstays⟩)
    rw [hshort]
    exact Or.inl ⟨q, hq, longname_shortened_iff.mpr ⟨rest, hlong, hbecomes⟩⟩

/-- Dropping the shared directory keeps the records in their order and shortens what they refer to
    others by as it shortens their own names. A reference still stands for what it stood for exactly
    if it is not misled. -/
theorem remove_preserved_iff (records : List Record) :
    (remove records).map Record.id = records.map Record.id ∧
      (remove records).map references =
        records.map (fun r => (references r).map (referred (common records) r)) ∧
      ∀ (r : Record) (name : String),
        Preserved records r name ↔ ¬ Misled (common records) records r name := by
  refine ⟨?_, ?_, fun r name => ⟨fun h hmisled => hmisled.not_preserved h, fun h => ?_⟩⟩
  · rw [remove_eq_map, List.map_map]
    refine List.map_congr_left fun r _ => ?_
    simp only [Function.comp_apply, shortened]
    split <;> rfl
  · rw [remove_eq_map, List.map_map]
    exact List.map_congr_left fun r _ => references_shortened (common records) r
  · exact not_not.mp fun hnot => h (misled_of_not_preserved hnot)

/-- A class in a file, and one that extends it and whose file is not known. -/
def inheritance : List Value :=
  let entry (context : List (String × Value)) : Value :=
    .object [("category", .str "Class"), ("context", .object context)]
  [entry [("file_path", .str "src/a.js"), ("name", .str "Base"), ("export", .bool true)],
    entry [("name", .str "Derived"), ("superclass", .str "src/a.js~Base"), ("export", .bool true)]]

/-- The records of the two classes. -/
def inheritanceRecords : List Record :=
  (Intake.createAll (fun _ => ⟨[], []⟩) (.start false) inheritance).1.store.records

/-- The second class loses the first, which is shortened in its own record only. -/
theorem not_preserved_inheritance :
    inheritanceRecords.map references = [[], ["src/a.js~Base"]] ∧
      ¬ ∀ r ∈ inheritanceRecords, ∀ name ∈ references r, Preserved inheritanceRecords r name :=
  ⟨by decide +kernel, by decide +kernel⟩

end CommonPath

end DocGraph
