import DocGraph.Intake
import DocGraph.Resolution.Misfit

/-! From a list of entries to resolved records. -/

namespace DocGraph

/-- What a run over entries gives. -/
structure Outcome where
  store : Store
  diagnostics : List Diagnostic
  /-- The number of records taken in. -/
  created : Nat

/-- Why a run over entries fails. -/
inductive RunError where
  | intake (e : IntakeError)
  | misfit (m : Resolution.Misfit)

namespace Pipeline

/-- An entry of the pipeline's log. -/
def entry (level : Log.Level) (message : String) : Log.Entry := ⟨level, .pipeline, message⟩

/-- The warning about problems, if there were any. -/
def warnings (diagnostics : List Diagnostic) : List Log.Entry :=
  if diagnostics.isEmpty then []
  else [entry .warning (Number.decimalText diagnostics.length ++
    " annotation(s) could not be parsed")]

/-- Takes in entries and resolves their records. The log is there also when an entry is refused; the
    files are those that there are when some of it has been written. -/
def resolveEntries [CharacterNames] (settings : Settings) (files : List Log.Entry → Files.Tree)
    (entries : List Value) : List Log.Entry × Except RunError Outcome :=
  match Intake.createAll files (.start settings.strict) entries with
  | (i, some e) => (i.logs, .error (.intake e))
  | (i, none) =>
    let logs := i.logs ++
      [entry .debug ("Created " ++ Number.decimalText entries.length ++ " records")]
    match Resolution.misfit? settings i.store.records with
    | some m => (logs, .error (.misfit m))
    | none =>
      (logs ++ Resolution.logs settings true i.store.records ++ warnings i.diagnostics,
        .ok ⟨Resolution.resolve settings i.store, i.diagnostics, entries.length⟩)

end Pipeline

end DocGraph
