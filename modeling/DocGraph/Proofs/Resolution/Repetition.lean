import Mathlib.Data.List.Basic
import DocGraph.Proofs.Resolution.Idempotence
import DocGraph.Proofs.Resolution.Shortening

/-! Resolving a second time where the shared directory is dropped.

    The paths of the files stay as they are, so a second run looks for the same directory, or for a
    longer one, at the front of names that have lost it once already. Something changes again
    exactly if a name begins with it still, as below a directory of the same name
    (`resolve_resolve_iff`). -/

namespace DocGraph

namespace CommonPath

/-- No name in a record of a file begins with the directory that all files share, if there is
    one. -/
def Shortest (records : List Record) : Prop :=
  common records = "" ∨ ∀ r ∈ records, inFile r = true →
    ∀ name ∈ namesIn r, Text.startsWith name (common records) = false

instance (records : List Record) : Decidable (Shortest records) :=
  inferInstanceAs (Decidable (_ ∨ _))

theorem shortest_iff {records : List Record} :
    Shortest records ↔
      ∀ r ∈ records, ∀ name ∈ namesIn r, referred (common records) r name = name := by
  rw [Shortest]
  constructor
  · intro h r hr name hname
    rw [referred]
    split
    · next hfile =>
      exact strip_eq_self_iff.mpr (h.imp_right fun hall => hall r hr hfile name hname)
    · rfl
  · intro h
    refine or_iff_not_imp_left.mpr fun hhead r hr hfile name hname => ?_
    have hsame := h r hr name hname
    rw [referred_of_inFile hfile, strip_eq_self_iff] at hsame
    exact hsame.resolve_left hhead

/-- Records with the shortest names are left as they are. -/
theorem remove_of_shortest {records : List Record} (h : Shortest records) :
    remove records = records := by
  rw [remove_eq_map]
  conv_rhs => rw [← List.map_id records]
  refine List.map_congr_left fun r hr => ?_
  have hnames := shortest_iff.mp h r hr
  rw [shortened]
  split
  · next hfile =>
    rw [referred_of_inFile hfile] at hnames
    exact stripRecord_eq_self hnames
  · rfl

/-- Records whose names are left as they are have the shortest names. -/
theorem shortest_of_namesIn {records : List Record}
    (h : (remove records).map namesIn = records.map namesIn) : Shortest records := by
  rw [remove_eq_map, List.map_map, List.map_inj_left] at h
  refine shortest_iff.mpr fun r hr => ?_
  have hnames : (namesIn r).map (referred (common records) r) = (namesIn r).map id := by
    rw [← namesIn_shortened, List.map_id]
    exact h r hr
  exact List.map_inj_left.mp hnames

end CommonPath

namespace Resolution

open Relations Visibility CommonPath

/-- Where nothing is removed, a run leaves the names as they are once they are shortened. -/
theorem namesIn_resolveRecords {settings : Settings} {records : List Record}
    (h : (resolveRecords settings records).length = records.length) :
    (resolveRecords settings records).map namesIn = (shorten settings records).map namesIn := by
  classical
  have hbare := bare_resolveRecords settings records
  have hlength : (prepare settings records).length = records.length := by
    calc (prepare settings records).length
        = ((prepare settings records).map untouched).length := (List.length_map _).symm
      _ = ((shorten settings records).map Record.id).length := by
          rw [untouched_prepare, List.length_map, List.length_map]
      _ = records.length := by rw [shorten_ids, List.length_map]
  have hall : ((prepare settings records).filter fun r =>
      decide (Survives settings (prepare settings records) r)) = prepare settings records := by
    have hkept := congrArg List.length hbare
    rw [List.length_map, List.length_map, h, ← hlength] at hkept
    exact List.filter_eq_self.mpr (List.length_filter_eq_length_iff.mp hkept.symm)
  -- no pass from the marks on changes a name, and of those before only the shortening does
  calc (resolveRecords settings records).map namesIn
      = ((resolveRecords settings records).map bare).map namesIn := by rw [List.map_map]; rfl
    _ = ((prepare settings records).map bare).map namesIn := by rw [hbare, hall]
    _ = ((prepare settings records).map untouched).map namesIn := by
        rw [List.map_map, List.map_map]; rfl
    _ = ((shorten settings records).map untouched).map namesIn := by rw [untouched_prepare]
    _ = (shorten settings records).map namesIn := by rw [List.map_map]; rfl

/-- Where the shared directory is dropped and hidden records are removed, resolving a second time
    changes nothing exactly if no name that is left begins with the directory that the files of the
    records that are left share. -/
theorem resolve_resolve_iff (settings : Settings) (hk : settings.keepUnexported = false)
    (hp : settings.removeCommonPath = true) (s : Store) :
    resolve settings (resolve settings s) = resolve settings s ↔
      Shortest (resolve settings s).records := by
  have hremove : ∀ records, shorten settings records = remove records := fun records => by
    rw [shorten, hp, if_pos rfl]
  constructor
  · intro h
    have hrecords : resolveRecords settings (resolve settings s).records =
        (resolve settings s).records := congrArg Store.records h
    have hnames := namesIn_resolveRecords (congrArg List.length hrecords)
    rw [hrecords, hremove] at hnames
    exact shortest_of_namesIn hnames.symm
  · intro h
    have hshort : shorten settings (resolveRecords settings s.records) =
        resolveRecords settings s.records := by
      rw [hremove]
      exact remove_of_shortest h
    have hrecords : resolveRecords settings (resolveRecords settings s.records) =
        resolveRecords settings s.records := by
      rw [resolveRecords, prepare_of_unshortened hk hshort, mark_resolveRecords,
        removeIgnored_resolveRecords]
    simp only [resolve, hrecords]

/-- Two classes, one of them in a directory below one of the same name. -/
def nested : Store :=
  { Store.empty with
    records :=
      [{ id := 1, category := "Class", filePath := .str "src/src/a.js", name := .str "A",
          memberof := .str "src/src/a.js", longname := .str "src/src/a.js~A" },
        { id := 2, category := "Class", filePath := .str "src/b.js", name := .str "B",
          memberof := .str "src/b.js", longname := .str "src/b.js~B" }] }

/-- Settings that drop the shared directory. -/
def shortening : Settings := { removeCommonPath := true }

/-- A second run shortens the name of the first class again. -/
theorem resolve_resolve_nested :
    (resolve shortening nested).records.map (fun r => r.longname.asText?) =
        [some "src/a.js~A", some "b.js~B"] ∧
      (resolve shortening (resolve shortening nested)).records.map (fun r => r.longname.asText?) =
        [some "a.js~A", some "b.js~B"] ∧
      resolve shortening (resolve shortening nested) ≠ resolve shortening nested := by
  have honce : (resolve shortening nested).records.map (fun r => r.longname.asText?) =
      [some "src/a.js~A", some "b.js~B"] := by decide +kernel
  have htwice : (resolve shortening (resolve shortening nested)).records.map
      (fun r => r.longname.asText?) = [some "a.js~A", some "b.js~B"] := by decide +kernel
  refine ⟨honce, htwice, fun h => ?_⟩
  rw [h, honce] at htwice
  exact absurd htwice (by decide)

/-- A third run finds nothing left to shorten. -/
theorem resolve_resolve_iff_nested :
    Shortest (resolve shortening (resolve shortening nested)).records ∧
      resolve shortening (resolve shortening (resolve shortening nested)) =
        resolve shortening (resolve shortening nested) := by
  have hshortest : Shortest (resolve shortening (resolve shortening nested)).records := by
    decide +kernel
  exact ⟨hshortest, (resolve_resolve_iff shortening rfl rfl (resolve shortening nested)).mpr
    hshortest⟩

end Resolution

end DocGraph
