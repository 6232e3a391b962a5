import DocGraph.Log
import DocGraph.Resolution.CommonPath
import DocGraph.Resolution.Visibility
import DocGraph.Store.Basic

/-! Resolution: the passes over all records once they have been taken in. -/

namespace DocGraph

namespace Resolution

/-- Removes what is ignored, and derives the relations anew if anything was. -/
def removeIgnored (records : List Record) : List Record :=
  let kept := Visibility.sweep records
  if kept.length < records.length then Relations.deriveAll kept else kept

/-- Drops the shared directory if the settings say so. -/
def shorten (settings : Settings) (records : List Record) : List Record :=
  if settings.removeCommonPath then CommonPath.remove records else records

/-- Marks the records that are not to be kept. -/
def mark (settings : Settings) (records : List Record) : List Record :=
  let records := records.map (Visibility.applyAccess settings)
  let records := if settings.keepUnexported then records else records.map Visibility.applyExport
  let records :=
    if settings.keepUndocumented then records else records.map Visibility.applyUndocumented
  Visibility.applyDuplicates records

/-- The passes that come before the marks: names are shortened, relations derived, and records that
    are necessary exported. -/
def prepare (settings : Settings) (records : List Record) : List Record :=
  Visibility.promoteAll (Relations.deriveAll (shorten settings records))

/-- Runs all passes over records. -/
def resolveRecords (settings : Settings) (records : List Record) : List Record :=
  removeIgnored (mark settings (prepare settings records))

/-- An entry of the resolution's log. -/
def entry (message : String) : Log.Entry := ⟨.info, .resolution, message⟩

/-- What resolution logs about the shared directory. -/
def commonPathLog (settings : Settings) (records : List Record) : List Log.Entry :=
  let head := CommonPath.common records
  if settings.removeCommonPath && !head.isEmpty then [entry ("common path removed: " ++ head)]
  else []

/-- The passes that the settings ask for, by name. -/
def passes (settings : Settings) : List String :=
  ["extends chain", "necessary", "access"] ++
    (if settings.keepUnexported then [] else ["unexported identifier"]) ++
    (if settings.keepUndocumented then [] else ["undocumented identifier"]) ++
    ["duplication", "ignore"]

/-- What a run over records logs: the passes if `progress` is asked for, and the shared directory in
    any case. -/
def logs (settings : Settings) (progress : Bool) (records : List Record) : List Log.Entry :=
  let pass (name : String) : List Log.Entry :=
    if progress then [entry ("resolve: " ++ name)] else []
  (if settings.removeCommonPath then pass "removing common path" else []) ++
    commonPathLog settings records ++ (passes settings).flatMap pass

/-- Resolves the records of a store. -/
def resolve (settings : Settings) (s : Store) : Store :=
  { s with records := resolveRecords settings s.records }

end Resolution

end DocGraph
