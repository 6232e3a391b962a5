import Mathlib.Data.List.Forall2
import DocGraph.Proofs.Record.Fields
import DocGraph.Proofs.Resolution.Idempotence
import DocGraph.Proofs.Resolution.Shortening

/-! What resolution leaves alone.

    Each pass after the first changes a record only in what the passes own (`Framed`): a missing
    access is settled, a hidden record is shown, relations are derived. Such changes add up to one
    (`Framed.trans`), so it is enough to look at the passes one by one. The first pass drops the
    shared directory from names. `resolve_frame` says what that comes to for a record that is kept
    and the record it was, and that the relations it had do not matter. -/

namespace DocGraph

namespace Resolution

open Relations Visibility

/-! ### Changes -/

/-- The fields that the passes after the first own. -/
def passFields : List Field := [.access, .exported, .relations, .extra]

/-- The fields that hold names. -/
def nameFields : List Field := [.name, .longname, .memberof, .parents, .interfaces, .testTargets]

/-- A record differs from what it was only in what the passes after the first own. -/
structure Framed (r q : Record) : Prop where
  others : ∀ f ∉ passFields, r.field f = q.field f
  access : r.access = q.access ∨
    Record.filled q.access = none ∧ (r.access = some "public" ∨ r.access = some "private")
  exported : r.exported = q.exported ∨ q.exported = .bool false ∧ r.exported = .bool true
  beside : ∀ name, name ≠ "access" → isUnrelated name = true →
    r.extra.get? name = q.extra.get? name
  oddAccess : hasOddAccess r = hasOddAccess q

theorem Framed.refl (r : Record) : Framed r r where
  others := fun _ _ => rfl
  access := .inl rfl
  exported := .inl rfl
  beside := fun _ _ _ => rfl
  oddAccess := rfl

theorem Framed.trans {r q p : Record} (h : Framed r q) (h' : Framed q p) : Framed r p where
  others := fun f hf => (h.others f hf).trans (h'.others f hf)
  access := by
    rcases h.access with he | ⟨hq, hr⟩
    · rw [he]
      exact h'.access
    · rcases h'.access with he | ⟨hp, hq'⟩
      · exact .inr ⟨he ▸ hq, hr⟩
      · exact .inr ⟨hp, hr⟩
  exported := by
    rcases h.exported with he | ⟨hq, hr⟩
    · rw [he]
      exact h'.exported
    · rcases h'.exported with he | ⟨hp, hq'⟩
      · exact .inr ⟨he ▸ hq, hr⟩
      · exact .inr ⟨hp, hr⟩
  beside := fun name hn hu => (h.beside name hn hu).trans (h'.beside name hn hu)
  oddAccess := h.oddAccess.trans h'.oddAccess

instance : IsTrans Record Framed := ⟨fun _ _ _ => Framed.trans⟩

instance : Std.Refl Framed := ⟨Framed.refl⟩

/-! ### The passes after the first -/

theorem framed_dressed (g : Record → Relations) (r : Record) : Framed (dressed g r) r where
  others := fun f hf => by
    cases f <;> first | rfl | exact absurd (by decide) hf
  access := .inl rfl
  exported := .inl rfl
  beside := fun _ _ hu => get?_besideOf hu r
  oddAccess := by
    have haccess : (dressed g r).extra.get? "access" = r.extra.get? "access" :=
      get?_besideOf (by decide) r
    rw [hasOddAccess, haccess, hasOddAccess]

theorem framed_promote (records : List Record) (r : Record) : Framed (promote records r) r := by
  rw [promote]
  split
  · next h =>
    rw [Bool.and_eq_true, isUnexported, isFlag_iff] at h
    exact
      { others := fun f hf => by cases f <;> first | rfl | exact absurd (by decide) hf
        access := .inl rfl
        exported := .inr ⟨h.1, rfl⟩
        beside := fun _ _ _ => rfl
        oddAccess := rfl }
  · exact .refl r

/-- A record without a reason to remove it is only given an access. -/
theorem framed_marked {settings : Settings} {records : List Record} {r : Record}
    (h : ¬ Flagged settings records r) : Framed (marked settings records r) r := by
  have hodd : hasOddAccess r = false := by
    rw [← Bool.not_eq_true, hasOddAccess_iff]
    exact fun ⟨_, hr, ht⟩ => h (.oddAccess hr ht)
  have herased : hasOddAccess (marked settings records r) = false := by
    rw [hasOddAccess, (keptFrom_marked h).settled]
  rw [marked_of_not_flagged h] at herased ⊢
  exact
    { others := fun f hf => by cases f <;> first | rfl | exact absurd (by decide) hf
      access := by
        show some (effectiveAccess settings r) = _ ∨ _
        rw [effectiveAccess]
        split
        · next access ha => exact .inl (filled_eq_some_iff.mp ha).1.symm
        · next ha => exact .inr ⟨ha, by split <;> simp⟩
      exported := .inl rfl
      beside := fun name hn _ =>
        Named.get?_filter (fun n => n ≠ "access") (decide_eq_true hn) r.extra
      oddAccess := herased.trans hodd.symm }

/-- Promoting records in order changes each of them as promoting one does. -/
theorem framed_promoteFrom : ∀ {done before : List Record} (todo : List Record),
    List.Forall₂ Framed done before → List.Forall₂ Framed (promoteFrom done todo) (before ++ todo)
  | done, before, [], h => by rwa [promoteFrom, List.append_nil]
  | done, before, r :: rest, h => by
    have hone : List.Forall₂ Framed [promote (done ++ r :: rest) r] [r] :=
      .cons (framed_promote _ r) .nil
    rw [promoteFrom, List.append_cons before]
    exact framed_promoteFrom rest (List.rel_append h hone)

theorem framed_deriveAll (records : List Record) :
    List.Forall₂ Framed (deriveAll records) records := by
  rw [deriveAll_eq_map, List.forall₂_map_left_iff, List.forall₂_same]
  exact fun r _ => framed_dressed _ r

/-- The removal takes records away and settles the access of those that it leaves. -/
theorem framed_removeIgnored (settings : Settings) (records : List Record) :
    List.SublistForall₂ Framed (removeIgnored (mark settings records)) records := by
  classical
  have hswept : List.SublistForall₂ Framed (sweep (mark settings records)) records := by
    rw [sweep_mark, List.sublistForall₂_map_left_iff, List.sublistForall₂_iff]
    refine ⟨_, List.forall₂_same.mpr fun r hr => ?_, List.filter_sublist⟩
    have hsurvives : Survives settings records r := of_decide_eq_true (List.mem_filter.mp hr).2
    exact framed_marked hsurvives.1
  simp only [removeIgnored]
  split
  · exact IsTrans.trans _ _ _
      (List.sublistForall₂_iff.mpr ⟨_, framed_deriveAll _, List.Sublist.refl _⟩) hswept
  · exact hswept

/-- All passes after the first together. -/
theorem framed_resolveRecords (settings : Settings) (records : List Record) :
    List.SublistForall₂ Framed (resolveRecords settings records) (shorten settings records) := by
  have hpromoted : List.Forall₂ Framed (prepare settings records)
      (deriveAll (shorten settings records)) := framed_promoteFrom _ .nil
  have hprepared : List.SublistForall₂ Framed (prepare settings records)
      (shorten settings records) :=
    IsTrans.trans _ _ _ (List.sublistForall₂_iff.mpr ⟨_, hpromoted, List.Sublist.refl _⟩)
      (List.sublistForall₂_iff.mpr ⟨_, framed_deriveAll _, List.Sublist.refl _⟩)
  exact IsTrans.trans _ _ _ (framed_removeIgnored settings _) hprepared

/-! ### Names -/

/-- A name and what is left of it: all, or what follows one copy of the shared directory. -/
inductive Cut (settings : Settings) (head : String) : String → String → Prop
  | whole (name : String) : Cut settings head name name
  | dropped (h : settings.removeCommonPath = true) (rest : String) :
      Cut settings head rest (head ++ rest)

/-- A value and what is left of it if it is a name. -/
inductive CutValue (settings : Settings) (head : String) : Value → Value → Prop
  | same (v : Value) : CutValue settings head v v
  | name {short long : String} (h : Cut settings head short long) :
      CutValue settings head (.str short) (.str long)

/-- The names of a record and what is left of them. -/
structure NamesCut (settings : Settings) (head : String) (r q : Record) : Prop where
  name : CutValue settings head r.name q.name
  longname : CutValue settings head r.longname q.longname
  memberof : CutValue settings head r.memberof q.memberof
  parents : Option.Rel (List.Forall₂ (Cut settings head)) r.parents q.parents
  interfaces : Option.Rel (List.Forall₂ (Cut settings head)) r.interfaces q.interfaces
  testTargets : Option.Rel (List.Forall₂ (Cut settings head)) r.testTargets q.testTargets

section Cut

variable {settings : Settings}

theorem cut_strip (hs : settings.removeCommonPath = true) (head name : String) :
    Cut settings head (CommonPath.strip head name) name := by
  generalize hshort : CommonPath.strip head name = short
  rcases CommonPath.strip_eq_iff.mp hshort with rfl | ⟨rfl, _⟩
  · exact .dropped hs short
  · exact .whole name

theorem cutValue_stripValue (hs : settings.removeCommonPath = true) (head : String) (v : Value) :
    CutValue settings head (CommonPath.stripValue head v) v := by
  cases v with
  | str name => exact .name (cut_strip hs head name)
  | _ => exact .same _

theorem rel_map_cut {head : String} {f : String → String}
    (hf : ∀ name, Cut settings head (f name) name) (o : Option (List String)) :
    Option.Rel (List.Forall₂ (Cut settings head)) (o.map (List.map f)) o := by
  cases o with
  | none => exact .none
  | some names =>
    refine .some ?_
    rw [List.forall₂_map_left_iff, List.forall₂_same]
    exact fun name _ => hf name

theorem namesCut_self (head : String) (r : Record) : NamesCut settings head r r := by
  have hsame : ∀ o : Option (List String),
      Option.Rel (List.Forall₂ (Cut settings head)) o o := fun o => by
    have hwhole : ∀ name, Cut settings head (id name) name := .whole
    have hmap := rel_map_cut hwhole o
    rwa [List.map_id_fun, Option.map_id] at hmap
  exact ⟨.same _, .same _, .same _, hsame _, hsame _, hsame _⟩

theorem namesCut_stripRecord (hs : settings.removeCommonPath = true) (head : String) (r : Record) :
    NamesCut settings head (CommonPath.stripRecord head r) r :=
  ⟨cutValue_stripValue hs head _, cutValue_stripValue hs head _, cutValue_stripValue hs head _,
    rel_map_cut (cut_strip hs head) _, rel_map_cut (cut_strip hs head) _,
    rel_map_cut (cut_strip hs head) _⟩

end Cut

/-! ### Names and relations before the other passes -/

/-- What becomes of a record when names are shortened. -/
def renamed (settings : Settings) (head : String) (r : Record) : Record :=
  if settings.removeCommonPath then CommonPath.shortened head r else r

theorem shorten_eq_map (settings : Settings) (records : List Record) :
    shorten settings records =
      records.map (renamed settings (CommonPath.common records)) := by
  rw [shorten]
  split
  · next h =>
    rw [CommonPath.remove_eq_map]
    exact List.map_congr_left fun r _ => by rw [renamed, if_pos h]
  · next h =>
    conv_lhs => rw [← List.map_id records]
    exact List.map_congr_left fun r _ => by rw [renamed, if_neg h, id]

theorem field_renamed (settings : Settings) (head : String) (r : Record) {f : Field}
    (hf : f ∉ nameFields) : (renamed settings head r).field f = r.field f := by
  rw [renamed]
  split
  · rw [CommonPath.shortened]
    split
    · cases f <;> first | rfl | exact absurd (by decide) hf
    · rfl
  · rfl

theorem namesCut_renamed (settings : Settings) (head : String) (r : Record) :
    NamesCut settings head (renamed settings head r) r := by
  rw [renamed]
  split
  · next hs =>
    rw [CommonPath.shortened]
    split
    · exact namesCut_stripRecord hs head r
    · exact namesCut_self head r
  · exact namesCut_self head r

/-- A record without its relations. -/
def forgotten (r : Record) : Record :=
  { r with
    relations := {}
    extra := r.extra.filter fun e => isUnrelated e.1 }

theorem besideOf_forgotten (r : Record) : besideOf (forgotten r) = besideOf r := by
  refine besideOf_congr_filter rfl ?_
  show (r.extra.filter fun e => isUnrelated e.1).filter (fun e => isUnrelated e.1) = _
  simp only [List.filter_filter, Bool.and_self]

theorem deriveAll_forgotten (records : List Record) :
    deriveAll (records.map forgotten) = deriveAll records := by
  have hskel : (records.map forgotten).map skeleton = records.map skeleton := by
    rw [List.map_map]
    rfl
  rw [deriveAll_eq_map, deriveAll_eq_map, List.map_map]
  refine List.map_congr_left fun r _ => ?_
  simp only [Function.comp_apply, dressed, besideOf_forgotten,
    derived_congr hskel (show skeleton (forgotten r) = skeleton r from rfl)]
  rfl

theorem shorten_forgotten (settings : Settings) (records : List Record) :
    shorten settings (records.map forgotten) = (shorten settings records).map forgotten := by
  have hcommon : CommonPath.common (records.map forgotten) = CommonPath.common records := by
    rw [CommonPath.common, List.filterMap_map]
    rfl
  rw [shorten_eq_map, shorten_eq_map, hcommon, List.map_map, List.map_map]
  refine List.map_congr_left fun r _ => ?_
  simp only [Function.comp_apply, renamed, CommonPath.shortened]
  split
  · show (if CommonPath.inFile r then _ else _) = _
    split <;> rfl
  · rfl

/-! ### What is left of a record -/

/-- A record that is kept, and what it was: resolution has touched only what it owns. -/
structure Touched (settings : Settings) (head : String) (r q : Record) : Prop
    extends NamesCut settings head r q where
  others : ∀ f ∉ passFields ++ nameFields, r.field f = q.field f
  /-- An access that is missing or empty is settled; any other stays. -/
  access : if Record.filled q.access = none then
      r.access = some "public" ∨ r.access = some "private"
    else r.access = q.access
  exported : r.exported = q.exported ∨ q.exported = .bool false ∧ r.exported = .bool true
  /-- What stands beside the fields stays, but for relations and for an access. -/
  beside : ∀ name, name ≠ "access" → isUnrelated name = true →
    r.extra.get? name = q.extra.get? name
  /-- An access that stands beside the fields does not count, and is gone. -/
  oddAccess : hasOddAccess q = false ∧ r.extra.get? "access" = none

theorem NamesCut.of_framed {settings : Settings} {head : String} {r p q : Record}
    (h : NamesCut settings head p q) (hf : Framed r p) : NamesCut settings head r q := by
  have hname : r.name = p.name := hf.others .name (by decide)
  have hlongname : r.longname = p.longname := hf.others .longname (by decide)
  have hmemberof : r.memberof = p.memberof := hf.others .memberof (by decide)
  have hparents : r.parents = p.parents := hf.others .parents (by decide)
  have hinterfaces : r.interfaces = p.interfaces := hf.others .interfaces (by decide)
  have htargets : r.testTargets = p.testTargets := hf.others .testTargets (by decide)
  exact ⟨hname ▸ h.name, hlongname ▸ h.longname, hmemberof ▸ h.memberof, hparents ▸ h.parents,
    hinterfaces ▸ h.interfaces, htargets ▸ h.testTargets⟩

theorem Framed.touched {settings : Settings} {head : String} {r q : Record}
    (h : Framed r (renamed settings head q)) (hfilled : Record.filled r.access ≠ none)
    (hsettled : r.extra.get? "access" = none) : Touched settings head r q := by
  have haccess : (renamed settings head q).access = q.access :=
    field_renamed settings head q (f := .access) (by decide)
  have hexported : (renamed settings head q).exported = q.exported :=
    field_renamed settings head q (f := .exported) (by decide)
  have hextra : (renamed settings head q).extra = q.extra :=
    field_renamed settings head q (f := .extra) (by decide)
  exact
    { toNamesCut := (namesCut_renamed settings head q).of_framed h
      others := fun f hf => by
        rw [List.mem_append, not_or] at hf
        exact (h.others f hf.1).trans (field_renamed settings head q hf.2)
      access := by
        rcases haccess ▸ h.access with he | ⟨hnone, hr⟩
        · rw [he] at hfilled
          rwa [if_neg hfilled]
        · rwa [if_pos hnone]
      exported := hexported ▸ h.exported
      beside := hextra ▸ h.beside
      oddAccess := by
        refine ⟨?_, hsettled⟩
        have hodd : hasOddAccess (renamed settings head q) = hasOddAccess q := by
          rw [hasOddAccess, hextra, hasOddAccess]
        rw [← hodd, ← h.oddAccess, hasOddAccess, hsettled] }

/-- Each record that is kept comes from its own record, in order. -/
theorem touched_resolveRecords (settings : Settings) (records : List Record) :
    List.SublistForall₂ (Touched settings (CommonPath.common records))
      (resolveRecords settings records) records := by
  have hframed := framed_resolveRecords settings records
  rw [shorten_eq_map, List.sublistForall₂_map_right_iff, List.sublistForall₂_iff] at hframed
  obtain ⟨kept, hkept, hsub⟩ := hframed
  refine List.sublistForall₂_iff.mpr ⟨kept, ?_, hsub⟩
  -- every record that is kept has an access in the end
  have hsettled : ∀ r ∈ resolveRecords settings records,
      Record.filled r.access ≠ none ∧ r.extra.get? "access" = none := by
    intro r hr
    obtain ⟨q, _, _, hfrom⟩ := mem_resolveRecords hr
    have hfilled := filled_eq_some_iff.mpr ⟨hfrom.access, effectiveAccess_ne_empty settings q⟩
    exact ⟨hfilled ▸ Option.some_ne_none _, hfrom.settled⟩
  refine ((List.forall₂_and_left _ _).mpr ⟨hsettled, hkept⟩).imp ?_
  rintro r q ⟨⟨hfilled, hnone⟩, hf⟩
  exact hf.touched hfilled hnone

theorem resolveRecords_forgotten (settings : Settings) (records : List Record) :
    resolveRecords settings (records.map forgotten) = resolveRecords settings records := by
  simp only [resolveRecords, prepare, shorten_forgotten, deriveAll_forgotten]

/-- A record that is kept is what it was, but for what resolution owns; and it does not matter what
    relations the records had. -/
theorem resolve_frame (settings : Settings) (s : Store) :
    List.SublistForall₂ (Touched settings (CommonPath.common s.records))
        (resolve settings s).records s.records ∧
      resolve settings { s with records := s.records.map forgotten } = resolve settings s := by
  refine ⟨touched_resolveRecords settings s.records, ?_⟩
  simp only [resolve, resolveRecords_forgotten]

end Resolution

end DocGraph
