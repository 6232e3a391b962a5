import DocGraph.Json.Writer
import DocGraph.Pipeline
import DocGraph.Record.Attribute

/-! Reports: resolved records as a document. -/

namespace DocGraph

/-- A record as a dictionary of all its attributes. -/
def Record.toValue (r : Record) : Value := .object (r.attributes.map fun a => (a.1, a.2.toValue))

/-- A problem as a dictionary. -/
def Diagnostic.toValue (d : Diagnostic) : Value :=
  .object [("record_id", .int d.recordId), ("file_path", d.filePath),
    ("tag_name", .str d.tagName), ("tag_value", .str d.tagValue), ("message", .str d.message)]

namespace Outcome

/-- The records and the problems of a run as a dictionary. -/
def toValue (o : Outcome) : Value :=
  .object [("records", .list (o.store.records.map Record.toValue)),
    ("diagnostics", .list (o.diagnostics.map Diagnostic.toValue))]

/-- Reports are indented by two blanks, with their keys in order. -/
def style : Json.Style := ⟨some 2, true⟩

/-- The report of a run. -/
def report (o : Outcome) : Except Json.WriteError String :=
  (Json.write style o.toValue).map (· ++ "\n")

end Outcome

/-- Lists of tags are indented by two blanks. -/
def Tag.style : Json.Style := ⟨some 2, false⟩

/-- The report on a list of tags. -/
def Tag.report (tags : List Tag) : Except Json.WriteError String :=
  (Json.write Tag.style (.list (tags.map Tag.toValue))).map (· ++ "\n")

end DocGraph
