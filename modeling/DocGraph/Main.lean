import DocGraph.Command.Needs
import Std.Time

/-! The command line.

    The files that a run looks at are read into a snapshot, the run is a function of it, and what it
    changed is written back. -/

namespace DocGraph

/-- What lies at a place of the file system. A directory can be opened, but not read. -/
def observeNode (names : List String) : IO (Option Files.Node) := do
  match ← (IO.FS.readBinFile ("/" ++ Text.joined "/" names)).toBaseIO with
  | .ok bytes => return some (.file bytes.toList)
  | .error (.inappropriateType none _ _) => return some .directory
  | .error _ => return none

/-- Adds what lies at the places that paths lead through. -/
def observe (files : Files.Tree) (paths : List Files.Path) : IO Files.Tree :=
  (paths.flatMap (Command.places files)).foldlM
    (fun t names => do
      if names.isEmpty || (t.nodeAt names).isSome then return t
      match ← observeNode names with
      | some n => return t.put names n
      | none => return t) files

/-- The snapshot that a request needs. -/
def snapshot (r : Command.Request) : IO Files.Tree := do
  let here := (Files.Path.ofText (← IO.currentDir).toString).names
  let files ← observe ⟨[], here⟩ (r.task.paths ++ [⟨false, []⟩])
  observe files (r.task.sources files)

/-- Writes back what a run changed. -/
def writeBack (before after : Files.Tree) : IO Unit :=
  after.entries.forM fun (names, n) => do
    if before.nodeAt names = some n then return
    let path := "/" ++ Text.joined "/" names
    match n with
    | .directory => IO.FS.createDirAll path
    | .file content => IO.FS.writeBinFile path ⟨content.toArray⟩

/-- The text on the standard input, if the task reads it. -/
def readStdin (r : Command.Request) : IO String := do
  match r.task with
  | .tokenize "-" => (← IO.getStdin).readToEnd
  | _ => return ""

/-- The time, as log files show it. -/
def readTime : IO String := do
  return (← Std.Time.PlainDateTime.now).format "uuuu-MM-dd HH:mm:ss,SSS"

/-- Runs a request, or explains why there is none. -/
def execute (words : List String) : IO UInt32 := do
  let (files, stdin) ← match Command.Request.read words with
    | .ok r => pure (← snapshot r, ← readStdin r)
    | .error _ => pure (⟨[], []⟩, "")
  match Command.run ⟨files, stdin, ← readTime⟩ words with
  | .error e =>
    IO.eprintln e.message
    return 1
  | .ok f =>
    writeBack files f.files
    IO.print f.stdout
    IO.eprint f.stderr
    return f.status.toUInt32

end DocGraph

/-- The program. -/
def main (words : List String) : IO UInt32 := DocGraph.execute words
