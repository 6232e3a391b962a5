import DocGraph.Value.Basic

/-! Diagnostics: problems of tags that do not stop the interpretation of a record. -/

namespace DocGraph

/-- A problem with one tag of a record. -/
structure Diagnostic where
  recordId : Int
  filePath : Value
  tagName : String
  tagValue : String
  message : String

end DocGraph
