import Mathlib.Data.List.Basic
import DocGraph.Proofs.Resolution.Marks
import DocGraph.Proofs.Resolution.Necessity

/-! Which records resolution keeps.

    `Flagged` lists the reasons to remove a record, and `Survives` says that there is none and that
    the record lies inside no other for which there is one. `resolve_survivors` says that the
    records that resolution keeps are those that survive, in their order: neither the order of the
    passes nor that of the removals matters. -/

namespace DocGraph

namespace Resolution

open Visibility

/-! ### The reasons -/

/-- A long name that continues another behind a separator. -/
def Inside (outer name : String) : Prop :=
  ∃ sep ∈ ['.', '~', '#'], ∃ rest, name.toList = outer.toList ++ sep :: rest

/-- A record with a long name that is not empty, and one whose long name lies inside it. -/
def Covers (f r : Record) : Prop :=
  ∃ outer name, outer ≠ "" ∧ f.longname = .str outer ∧ r.longname = .str name ∧ Inside outer name

/-- A record whose name has an underscore at its head. -/
def Underscored (r : Record) : Prop :=
  ∃ name rest, r.name = .str name ∧ name.toList = '_' :: rest

/-- The access of a record: its own unless that is empty, or else the one that its name suggests. -/
inductive HasAccess (settings : Settings) (r : Record) : String → Prop
  | own {access : String} (h : r.access = some access) (hne : access ≠ "") :
      HasAccess settings r access
  | suggested (h : r.access = none ∨ r.access = some "") (hs : settings.autoPrivate = true)
      (hn : Underscored r) : HasAccess settings r "private"
  | default (h : r.access = none ∨ r.access = some "")
      (hn : ¬ (settings.autoPrivate = true ∧ Underscored r)) : HasAccess settings r "public"

/-- A member of a class that is no method. -/
def Member (r : Record) : Prop := r.category = "ClassMember" ∨ r.category = "ClassProperty"

/-- A method that stands for a member of its name. -/
def Accessor (r : Record) : Prop :=
  r.category = "ClassMethod" ∧ ∃ q ∈ ["get", "set", "method"], r.qualifier = .str q

/-- The reasons to remove a record, among the records that the marks are made on. -/
inductive Flagged (settings : Settings) (records : List Record) (r : Record) : Prop
  | ignored (h : r.ignored = .bool true)
  /-- The access of the record is none that is kept. -/
  | access {access : String} (h : HasAccess settings r access) (hk : access ∉ settings.access)
  /-- The access of the record was set to something that is no access at all. -/
  | oddAccess {v : Value} (h : r.extra.get? "access" = some v) (ht : v.truthy = true)
  | unexported (hs : settings.keepUnexported = false) (h : r.exported = .bool false)
  | undocumented (hs : settings.keepUndocumented = false) (h : r.undocumented = .bool true)
  /-- A method stands for the member. -/
  | accessor (hr : Member r) {q : Record} (hq : q ∈ records)
      (hn : q.longname.matchesLiteral r.longname = true) (ha : Accessor q)
  /-- A member of the name has a smaller identity. -/
  | repeated (hr : Member r) {q : Record} (hq : q ∈ records)
      (hn : q.longname.matchesLiteral r.longname = true) (hm : Member q) (hi : q.id < r.id)

/-- Neither the record nor one that it lies inside is to be removed. -/
def Survives (settings : Settings) (records : List Record) (r : Record) : Prop :=
  ¬ Flagged settings records r ∧ ∀ f ∈ records, Flagged settings records f → ¬ Covers f r

/-! ### The checks decide the reasons -/

theorem isFlag_iff {b : Bool} {v : Value} : isFlag b v = true ↔ v = .bool b := by
  cases v <;> simp [isFlag]

theorem isInside_iff {outer name : String} : isInside outer name = true ↔ Inside outer name := by
  rw [isInside, Inside, ← String.length_toList]
  constructor
  · intro h
    split at h
    · next sep rest hdrop =>
      rw [Bool.and_eq_true] at h
      have hhead : outer.toList <+: name.toList := List.isPrefixOf_iff_prefix.mp h.1
      refine ⟨sep, by simpa [or_assoc] using h.2, rest, ?_⟩
      rw [← hdrop]
      exact (List.prefix_iff_eq_append.mp hhead).symm
    · exact absurd h Bool.false_ne_true
  · rintro ⟨sep, hsep, rest, he⟩
    have hhead : outer.toList.isPrefixOf name.toList = true := by
      rw [List.isPrefixOf_iff_prefix, he]
      exact List.prefix_append ..
    rw [he, List.drop_left]
    simp only [Text.startsWith, hhead, Bool.true_and]
    simpa [or_assoc] using hsep

theorem asText?_eq_some_iff {v : Value} {s : String} : v.asText? = some s ↔ v = .str s := by
  cases v <;> simp [Value.asText?]

theorem filled_eq_some_iff {o : Option String} {s : String} :
    Record.filled o = some s ↔ o = some s ∧ s ≠ "" := by
  cases o with
  | none => simp [Record.filled]
  | some t =>
    simp only [Record.filled, String.isEmpty_iff, Option.some.injEq]
    split
    · next h => simp [h]
    · next h =>
      simp only [Option.some.injEq, iff_self_and]
      rintro rfl
      exact h

theorem filledText_eq_some_iff {v : Value} {s : String} :
    Record.filledText v = some s ↔ v = .str s ∧ s ≠ "" := by
  rw [Record.filledText, filled_eq_some_iff, asText?_eq_some_iff]

theorem covers_iff {f r : Record} : covers f r = true ↔ Covers f r := by
  rw [covers, Covers]
  constructor
  · intro h
    split at h
    · next outer name ho hn =>
      obtain ⟨hf, hne⟩ := filledText_eq_some_iff.mp ho
      exact ⟨outer, name, hne, hf, asText?_eq_some_iff.mp hn, isInside_iff.mp h⟩
    · exact absurd h Bool.false_ne_true
  · rintro ⟨outer, name, hne, hf, hr, hi⟩
    rw [filledText_eq_some_iff.mpr ⟨hf, hne⟩, asText?_eq_some_iff.mpr hr]
    exact isInside_iff.mpr hi

/-- An access is empty or not there exactly if nothing is filled in. -/
theorem filled_eq_none_iff {o : Option String} :
    Record.filled o = none ↔ o = none ∨ o = some "" := by
  cases o with
  | none => simp [Record.filled]
  | some t => simp [Record.filled, String.isEmpty_iff]

theorem startsWith_underscore_iff {r : Record} :
    Text.startsWith (r.name.asText?.getD "") "_" = true ↔ Underscored r := by
  rw [Text.startsWith, List.isPrefixOf_iff_prefix, Underscored]
  constructor
  · rintro ⟨rest, h⟩
    cases hn : r.name with
    | str name => exact ⟨name, rest, rfl, by simpa [hn, Value.asText?] using h.symm⟩
    | _ => simp [hn, Value.asText?] at h
  · rintro ⟨name, rest, hn, hl⟩
    exact ⟨rest, by simp [hn, Value.asText?, hl]⟩

/-- A record has one access, the one that is worked out. -/
theorem hasAccess_iff {settings : Settings} {r : Record} {access : String} :
    HasAccess settings r access ↔ access = effectiveAccess settings r := by
  rw [effectiveAccess]
  constructor
  · intro h
    cases h with
    | own h hne => rw [filled_eq_some_iff.mpr ⟨h, hne⟩]
    | suggested h hs hn => simp [filled_eq_none_iff.mpr h, hs, startsWith_underscore_iff.mpr hn]
    | default h hn =>
      rw [← startsWith_underscore_iff, ← Bool.and_eq_true] at hn
      simp only [filled_eq_none_iff.mpr h, if_neg hn]
  · rintro rfl
    split
    · next access h => exact .own (filled_eq_some_iff.mp h).1 (filled_eq_some_iff.mp h).2
    · next h =>
      rw [filled_eq_none_iff] at h
      split
      · next hn =>
        rw [Bool.and_eq_true, startsWith_underscore_iff] at hn
        exact .suggested h hn.1 hn.2
      · next hn =>
        rw [Bool.and_eq_true, startsWith_underscore_iff] at hn
        exact .default h hn

theorem hasOddAccess_iff {r : Record} :
    hasOddAccess r = true ↔ ∃ v, r.extra.get? "access" = some v ∧ v.truthy = true := by
  rw [hasOddAccess]
  cases r.extra.get? "access" <;> simp

theorem isMember_iff {r : Record} : isMember r = true ↔ Member r := by
  rw [isMember, Bool.or_eq_true, decide_eq_true_iff, decide_eq_true_iff]
  rfl

theorem isAccessor_iff {r : Record} : isAccessor r = true ↔ Accessor r := by
  rw [isAccessor, Bool.and_eq_true, decide_eq_true_iff, Accessor]
  refine and_congr Iff.rfl ?_
  simp only [Bool.or_eq_true, Relations.isText_iff, List.mem_cons, List.not_mem_nil, or_false,
    exists_eq_or_imp, exists_eq_left]
  tauto

theorem isDuplicate_iff {records : List Record} {r : Record} :
    isDuplicate records r = true ↔ Member r ∧ ∃ q ∈ records,
      q.longname.matchesLiteral r.longname = true ∧ (Accessor q ∨ Member q ∧ q.id < r.id) := by
  simp [isDuplicate, isMember_iff, isAccessor_iff]

/-- A record is ignored once it is marked exactly if there is a reason to remove it. -/
theorem isIgnored_marked_iff {settings : Settings} {records : List Record} {r : Record} :
    isIgnored (marked settings records r) = true ↔ Flagged settings records r := by
  rw [isIgnored_marked, isIgnored_ownMarks]
  simp only [Bool.or_eq_true, Bool.and_eq_true, Bool.not_eq_true', isDuplicate_iff, isIgnored,
    isUnexported, isFlag_iff, hasOddAccess_iff]
  constructor
  · rintro (((((h | ⟨v, h, ht⟩) | h) | ⟨hs, h⟩) | ⟨hs, h⟩) | ⟨hr, q, hq, hn, ha | ⟨hm, hi⟩⟩)
    · exact .ignored h
    · exact .oddAccess h ht
    · exact .access (hasAccess_iff.mpr rfl) (by simpa using h)
    · exact .unexported hs h
    · exact .undocumented hs h
    · exact .accessor hr hq hn ha
    · exact .repeated hr hq hn hm hi
  · rintro (h | ⟨h, hk⟩ | ⟨h, ht⟩ | ⟨hs, h⟩ | ⟨hs, h⟩ | ⟨hr, hq, hn, ha⟩ | ⟨hr, hq, hn, hm, hi⟩)
    · simp [h]
    · simp [← hasAccess_iff.mp h, hk]
    · simp [h, ht]
    · simp [hs, h]
    · simp [hs, h]
    · exact Or.inr ⟨hr, _, hq, hn, Or.inl ha⟩
    · exact Or.inr ⟨hr, _, hq, hn, Or.inr ⟨hm, hi⟩⟩

/-! ### The survivors -/

/-- A record without what the passes before the marks change, once names are shortened. -/
def untouched (r : Record) : Record :=
  { r with
    exported := .null
    relations := {}
    extra := r.extra.filter fun e => Relations.isUnrelated e.1 }

theorem untouched_prepare (settings : Settings) (records : List Record) :
    (prepare settings records).map untouched = (shorten settings records).map untouched := by
  have hexport : ∀ rs : List Record, rs.map untouched = (rs.map withoutExport).map untouched :=
    fun rs => by
      rw [List.map_map]
      rfl
  rw [prepare, hexport, promoteAll_withoutExport, ← hexport, Relations.deriveAll_eq_map,
    List.map_map]
  refine List.map_congr_left fun r _ => ?_
  simp only [Function.comp_apply, untouched, Relations.dressed, Relations.filter_besideOf]

/-- Shortening names keeps the records and their order. -/
theorem shorten_ids (settings : Settings) (records : List Record) :
    (shorten settings records).map Record.id = records.map Record.id := by
  rw [shorten]
  split
  · simp only [CommonPath.remove]
    split
    · rfl
    · rw [List.map_map]
      refine List.map_congr_left fun r _ => ?_
      simp only [Function.comp_apply]
      split <;> rfl
  · rfl

/-- A record without what the passes from the marks on change. -/
def bare (r : Record) : Record := { unmarked r with relations := {} }

theorem bare_marked (settings : Settings) (records : List Record) (r : Record) :
    bare (marked settings records r) = bare r := by
  rw [bare, unmarked_marked, bare]

/-- Deriving again after the removal does not change which records there are. -/
theorem removeIgnored_bare (records : List Record) :
    (removeIgnored records).map bare = (sweep records).map bare := by
  simp only [removeIgnored]
  split
  · rw [Relations.deriveAll_eq_map, List.map_map]
    rfl
  · rfl

open Classical in
/-- The removal of the marked records leaves those that survive. -/
theorem sweep_mark (settings : Settings) (records : List Record) :
    sweep (mark settings records) =
      (records.filter fun r => decide (Survives settings records r)).map
        (marked settings records) := by
  have hname : ∀ r, (marked settings records r).longname = r.longname := fun r =>
    (congrArg Record.longname (unmarked_marked settings records r) :)
  have hcovers : ∀ f r, covers (marked settings records f) (marked settings records r) = true ↔
      Covers f r := fun f r => by
    rw [covers, hname, hname, ← covers, covers_iff]
  rw [sweep_eq_filter, mark_eq_map, List.filter_map]
  congr 1
  refine List.filter_congr fun r _ => ?_
  rw [Bool.eq_iff_iff, decide_eq_true_iff, Survives]
  simp only [Function.comp_apply, Bool.and_eq_true, Bool.not_eq_true', ← Bool.not_eq_true,
    isIgnored_marked_iff, List.any_map, List.any_eq_true, hcovers]
  constructor
  · rintro ⟨hr, hnone⟩
    exact ⟨hr, fun f hf hflag hc => hnone ⟨f, hf, hflag, hc⟩⟩
  · rintro ⟨hr, hall⟩
    exact ⟨hr, fun ⟨f, hf, hflag, hc⟩ => hall f hf hflag hc⟩

open Classical in
/-- A run keeps the records that survive, in their order. -/
theorem bare_resolveRecords (settings : Settings) (records : List Record) :
    (resolveRecords settings records).map bare =
      ((prepare settings records).filter fun r =>
        decide (Survives settings (prepare settings records) r)).map bare := by
  rw [resolveRecords, removeIgnored_bare, sweep_mark, List.map_map]
  exact List.map_congr_left fun r _ => bare_marked settings _ r

open Classical in
/-- Resolution keeps the records that survive, in their order. What it reads of them to see this is
    what they were given, but for shortened names and for exports of necessary records. -/
theorem resolve_survivors (settings : Settings) (s : Store) :
    (shorten settings s.records).map Record.id = s.records.map Record.id ∧
      (prepare settings s.records).map untouched = (shorten settings s.records).map untouched ∧
      (resolve settings s).records.map bare =
        ((prepare settings s.records).filter fun r =>
          decide (Survives settings (prepare settings s.records) r)).map bare := by
  exact ⟨shorten_ids settings s.records, untouched_prepare settings s.records,
    bare_resolveRecords settings s.records⟩

end Resolution

end DocGraph
