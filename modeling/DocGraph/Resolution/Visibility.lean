import DocGraph.Resolution.Relations
import DocGraph.Resolution.Settings

/-! Which records are shown.

    Passes over the records mark those that are not, and `sweep` removes them together with what is
    inside them. -/

namespace DocGraph

namespace Visibility

/-- Marks a record as ignored. -/
def ignore (r : Record) : Record := { r with ignored := .bool true }

/-- Whether a value is the truth value `b`, and not only counts as it. -/
def isFlag (b : Bool) : Value → Bool
  | .bool a => a == b
  | _ => false

/-- Whether a record is marked as not exported. -/
def isUnexported (r : Record) : Bool := isFlag false r.exported

/-- Whether a record is marked as ignored. -/
def isIgnored (r : Record) : Bool := isFlag true r.ignored

/-! ### Necessity -/

/-- The long names of the classes that depend on a record. -/
def dependentNames (r : Record) : List Value :=
  r.relations.directSubclasses.getD [] ++ r.relations.indirectSubclasses.getD [] ++
    r.relations.directImplementers.getD [] ++ r.relations.indirectImplementers.getD []

/-- Whether a record is shown because it is exported. -/
def isShown (r : Record) : Bool := !r.ignored.truthy && r.exported.truthy

/-- The first record whose long name is a given value. -/
def named? (records : List Record) (name : Value) : Option Record :=
  records.find? fun r => r.longname.matchesLiteral name

/-- Whether a class that is shown depends on a record. -/
def isNecessary (records : List Record) (r : Record) : Bool :=
  (dependentNames r).any fun n => match named? records n with
    | some child => isShown child
    | none => false

/-- Exports a record on which a class that is shown depends. -/
def promote (records : List Record) (r : Record) : Record :=
  if isUnexported r && isNecessary records r then { r with exported := .bool true } else r

/-- Promotes the records of `todo` in order; each sees those of `done` as they have become. -/
def promoteFrom (done : List Record) : List Record → List Record
  | [] => done
  | r :: rest => promoteFrom (done ++ [promote (done ++ r :: rest) r]) rest

/-- Exports the records on which classes that are shown depend. -/
def promoteAll (records : List Record) : List Record := promoteFrom [] records

/-! ### Marks -/

/-- The access of a record: its own, or else the one its name suggests. -/
def effectiveAccess (settings : Settings) (r : Record) : String :=
  match Record.filled r.access with
  | some access => access
  | none =>
    if settings.autoPrivate && Text.startsWith (r.name.asText?.getD "") "_" then "private"
    else "public"

/-- Whether the access of a record was set to something that counts, but is no text. -/
def hasOddAccess (r : Record) : Bool :=
  match r.extra.get? "access" with
  | some v => v.truthy
  | none => false

/-- Settles the access of a record, and ignores it unless that access is kept. -/
def applyAccess (settings : Settings) (r : Record) : Record :=
  if hasOddAccess r then ignore r
  else
    let access := effectiveAccess settings r
    let r := { r with access := some access, extra := r.extra.erase "access" }
    if settings.access.contains access then r else ignore r

/-- Ignores a record that is not exported. -/
def applyExport (r : Record) : Record := if isUnexported r then ignore r else r

/-- Ignores a record that is not documented. -/
def applyUndocumented (r : Record) : Record :=
  if isFlag true r.undocumented then ignore r else r

/-- Whether a record is a member that is no method. -/
def isMember (r : Record) : Bool :=
  r.category = Category.member.name || r.category = Category.property.name

/-- Whether a record is a method that stands for a member of its name. -/
def isAccessor (r : Record) : Bool :=
  r.category = Category.method.name &&
    (r.qualifier.isText "get" || r.qualifier.isText "method" || r.qualifier.isText "set")

/-- Whether a member repeats an accessor or an earlier member. -/
def isDuplicate (records : List Record) (r : Record) : Bool :=
  isMember r && records.any fun q =>
    q.longname.matchesLiteral r.longname && (isAccessor q || (isMember q && q.id < r.id))

/-- Ignores the members that repeat others. -/
def applyDuplicates (records : List Record) : List Record :=
  records.map fun r => if isDuplicate records r then ignore r else r

/-! ### Removal -/

/-- Whether a long name lies inside another: it continues it behind one of the separators. -/
def isInside (outer name : String) : Bool :=
  match name.toList.drop outer.length with
  | c :: _ => Text.startsWith name outer && (c = '.' || c = '~' || c = '#')
  | [] => false

/-- Whether a record lies inside another. -/
def covers (f r : Record) : Bool :=
  match Record.filledText f.longname, r.longname.asText? with
  | some outer, some name => isInside outer name
  | _, _ => false

/-- Removes what lies inside a record. -/
def clear (records : List Record) (f : Record) : List Record :=
  records.filter fun r => !covers f r

/-- Removes what lies inside the ignored records, one after the other, and then those that are
    left of them. -/
def sweep (records : List Record) : List Record :=
  ((records.filter isIgnored).foldl clear records).filter fun r => !isIgnored r

end Visibility

end DocGraph
