import DocGraph.Resolution.Basic

/-! Records that cannot be resolved.

    Resolution takes names and paths for texts. Where it would work on one that counts as given, but
    is no text, it stops instead, with one of two complaints: the value is of the wrong kind, or it
    has no such operation. -/

namespace DocGraph

namespace Resolution

/-- Why records cannot be resolved. -/
inductive Misfit where
  | wrongKind
  | noOperation
  deriving DecidableEq

/-- The complaint in words. -/
def Misfit.message : Misfit → String
  | wrongKind => "a value is of the wrong kind"
  | noOperation => "a value has no such operation"

/-- Whether a value counts as given, but is no text. -/
def isOdd (v : Value) : Bool := v.truthy && v.asText?.isNone

/-- Whether a list that was set against a field of names holds something else than texts. -/
def hasOddNames (r : Record) (name : String) : Bool :=
  match r.extra.get? name with
  | some (.list items) => items.any fun i => i.asText?.isNone
  | _ => false

/-- Whether an attribute was set to something that counts as given and cannot be gone through. -/
def isNoList (r : Record) (name : String) : Bool :=
  match r.extra.get? name with
  | some v => v.truthy && v.items?.isNone
  | none => false

/-- Whether the names of a record are looked at when the shared directory is dropped. -/
def hasPath (r : Record) : Bool :=
  r.kind ≠ some "memory" && r.kind ≠ some "external" && r.filePath.truthy

/-- What goes wrong when the shared directory is dropped. -/
def pathMisfit? (settings : Settings) (records : List Record) : Option Misfit :=
  let affected := records.filter hasPath
  if !settings.removeCommonPath then none
  else if affected.any fun r => isOdd r.filePath then some .wrongKind
  else if (CommonPath.common records).isEmpty then none
  else if affected.any fun r => isOdd r.longname || isOdd r.memberof || isOdd r.name ||
      hasOddNames r "extends" || hasOddNames r "implements" || hasOddNames r "test_targets" then
    some .noOperation
  else none

/-- What goes wrong when relations are derived. -/
def relationMisfit? (records : List Record) : Option Misfit :=
  if (records.filter Relations.isClass).any fun r =>
      isNoList r "extends" || isNoList r "implements" then some .wrongKind
  else none

/-- What goes wrong when access is settled. -/
def accessMisfit? (settings : Settings) (records : List Record) : Option Misfit :=
  if settings.autoPrivate && records.any fun r =>
      !Visibility.hasOddAccess r && (Record.filled r.access).isNone && isOdd r.name then
    some .noOperation
  else none

/-- What goes wrong when what is inside ignored records is looked for. -/
def sweepMisfit? (settings : Settings) (records : List Record) : Option Misfit :=
  let marked := mark settings (prepare settings records)
  if marked.any fun r => Visibility.isIgnored r && isOdd r.longname then some .wrongKind else none

/-- What goes wrong first when records are resolved, if anything does. -/
def misfit? (settings : Settings) (records : List Record) : Option Misfit :=
  (pathMisfit? settings records) <|> (relationMisfit? records) <|>
    (accessMisfit? settings records) <|> (sweepMisfit? settings records)

end Resolution

end DocGraph
