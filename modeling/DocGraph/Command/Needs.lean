import DocGraph.Command.Run

/-! The files that a task looks at, so that a snapshot can hold them and nothing else. -/

namespace DocGraph.Command

/-- The paths that the words of a task name, and those of the settings for it. -/
def Task.paths : Task → List Files.Path
  | .resolve input output config logFile =>
    let source := Files.Path.ofText input
    let settings := (config.map Files.Path.ofText).getD source.parent
    [source, settings, settings.child SettingsFile.fileName] ++
      ([output, logFile].filterMap fun p => p).map Files.Path.ofText
  | .tokenize path => if path = "-" then [] else [Files.Path.ofText path]

/-- The source files that a symbol points to. -/
def symbolPaths (entry : Value) : List Files.Path :=
  match entry.field? "context" with
  | none => []
  | some context => ["abs_path", "file_path"].filterMap fun name =>
    match context.field? name with
    | some (.str s) => some (Files.Path.ofText s)
    | _ => none

/-- The source files that the symbols of a task point to. -/
def Task.sources (files : Files.Tree) : Task → List Files.Path
  | .resolve input _ _ _ => match readSymbols files (Files.Path.ofText input) with
    | .ok entries => entries.flatMap symbolPaths
    | .error _ => []
  | .tokenize _ => []

/-- The places that a path leads through, from the root, the last one included. -/
def places (files : Files.Tree) (p : Files.Path) : List (List String) :=
  (List.range (p.names.length + 1)).map fun k =>
    Files.Path.resolveFrom (files.startOf p) (p.names.take k)

end DocGraph.Command
