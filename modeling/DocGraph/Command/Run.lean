import DocGraph.Command.Request
import DocGraph.Report
import DocGraph.SettingsFile

/-! Running a command line.

    A run reads and changes a snapshot of the files, and ends with a status and what it printed.
    Some failures are reported and give the status one; others end the run as they are. -/

namespace DocGraph.Command

/-- What fails in a task. -/
inductive Failure where
  | unreadable (e : Files.ReadError)
  | malformed (e : Json.ReadError)
  /-- The file of that name holds something else than a list of symbols. -/
  | notArray (name : String)
  | settings (e : SettingsFile.Error)
  | intake (e : IntakeError)
  | misfit (m : Resolution.Misfit)
  | report (e : Json.WriteError)
  | unwritable (e : Files.FileError)

/-- A failure of the run over entries. -/
def Failure.ofRun : RunError → Failure
  | .intake e => intake e
  | .misfit m => misfit m

/-- How a failure is reported. -/
inductive Handling where
  /-- In words. -/
  | briefly
  /-- In words, with a hint at how to find out more. -/
  | withHint
  /-- Not at all: the run ends with it. -/
  | crash
  deriving DecidableEq

/-- The failure in words. -/
def Failure.message : Failure → String
  | unreadable e => e.message
  | malformed e => e.message
  | notArray name => name ++ " must contain a JSON array of symbols"
  | settings e => e.message
  | intake e => e.message
  | misfit m => m.message
  | report e => e.message
  | unwritable e => e.message

/-- How a failing rule is reported: values of the wrong kind and numbers that are too large end the
    run. -/
def interpretHandling : InterpretError → Handling
  | .cycle _ => .briefly
  | .undeclared .. => .briefly
  | .failed .overflow => .crash
  | .failed .wrongType => .crash
  | .failed (.selection .wrongType) => .crash
  | _ => .withHint

/-- How a failure is reported when symbols are resolved. -/
def Failure.handling : Failure → Handling
  | settings (.read _) => .withHint
  | settings (.badScalar .overflow) => .crash
  | settings (.badScalar _) => .withHint
  | settings .longInteger => .withHint
  | settings _ => .briefly
  | intake (.interpret e) => interpretHandling e
  | intake (.symbol .wrongType) => .crash
  | misfit _ => .crash
  | report .badKeys => .crash
  | _ => .withHint

/-! ### Resolving symbols -/

/-- What a run finds around it. -/
structure Surroundings where
  files : Files.Tree
  stdin : String
  /-- The time, as log files show it. -/
  time : String

/-- A file that takes every entry of the log at once, and the time that its lines show. -/
structure LogFile where
  path : Files.Path
  time : String

/-- The files when a log file has taken some more entries. -/
def LogFile.after (l : LogFile) (files : Files.Tree) (entries : List Log.Entry) : Files.Tree :=
  let text := Text.joined "" (entries.map (Log.Entry.fileLine l.time))
  match files.append l.path text.toUTF8.toList with
  | .ok files => files
  | .error _ => files

/-- How far a run has come. -/
structure Progress where
  files : Files.Tree
  logFile : Option LogFile
  logs : List Log.Entry

namespace Progress

/-- The files when some more entries have been logged. -/
def filesAfter (p : Progress) (entries : List Log.Entry) : Files.Tree :=
  match p.logFile with
  | none => p.files
  | some l => l.after p.files entries

/-- Logs entries. -/
def log (p : Progress) (entries : List Log.Entry) : Progress :=
  { p with files := p.filesAfter entries, logs := p.logs ++ entries }

end Progress

/-- The symbols in a file. -/
def readSymbols (files : Files.Tree) (source : Files.Path) : Except Failure (List Value) :=
  match files.readText source.text with
  | .error e => .error (.unreadable e)
  | .ok text => match Json.read text with
    | .error e => .error (.malformed e)
    | .ok (.list entries) => .ok entries
    | .ok _ => .error (.notArray source.name)

/-- Writes a report to a file, together with the directories above it. The directories are there
    also when the file is not. -/
def save (files : Files.Tree) (target : Files.Path) (o : Outcome) :
    Files.Tree × Except Failure Unit :=
  match files.makeDirectories (target.names.length + 1) target.parent with
  | .error e => (files, .error (.unwritable e))
  | .ok files => match o.report with
    | .error e => (files, .error (.report e))
    | .ok text => match files.write target text.toUTF8.toList with
      | .error e => (files, .error (.unwritable e))
      | .ok files => (files, .ok ())

/-- Saves the report of an outcome if asked to, and logs that. -/
def saveTo (p : Progress) (o : Outcome) : Option Files.Path → Progress × Except Failure Outcome
  | none => (p, .ok o)
  | some target => match save p.files target o with
    | (files, .error e) => ({ p with files := files }, .error e)
    | (files, .ok _) =>
      let count := Number.decimalText o.store.records.length
      let wrote := Pipeline.entry .info ("Wrote " ++ count ++ " records to " ++ target.text)
      ({ p with files := files }.log [wrote], .ok o)

/-- Resolves the symbols in a file with the settings for them, and saves the report if asked to. -/
def resolveFile [CharacterNames] (p : Progress) (input : String) (output config : Option String) :
    Progress × Except Failure Outcome :=
  let source := Files.Path.ofText input
  let p := p.log [Pipeline.entry .info ("Reading symbols from " ++ source.text)]
  match readSymbols p.files source with
  | .error e => (p, .error e)
  | .ok entries =>
    match SettingsFile.load p.files ((config.map Files.Path.ofText).getD source.parent) with
    | .error e => (p, .error (.settings e))
    | .ok loaded =>
      match Pipeline.resolveEntries loaded.settings p.filesAfter entries with
      | (logs, .error e) => (p.log logs, .error (.ofRun e))
      | (logs, .ok o) => saveTo (p.log logs) o (output.map Files.Path.ofText)

/-- A path as it is shown from the working directory: relative to it when it lies inside. -/
def shownPath (files : Files.Tree) (p : Files.Path) : String :=
  let names := files.resolve p
  if files.here.isPrefixOf names then Files.Path.text ⟨false, names.drop files.here.length⟩
  else p.text

/-- What is printed about an outcome: the report, or where it went. -/
def printed (files : Files.Tree) (output : Option String) (o : Outcome) : Except Failure String :=
  match output with
  | none => o.report.mapError .report
  | some target =>
    .ok ("Resolved " ++ Number.decimalText o.store.records.length ++ " of " ++
      Number.decimalText o.created ++ " records into " ++
      shownPath files (Files.Path.ofText target) ++ "\n")

/-! ### Runs -/

/-- How a run ended. -/
structure Finished where
  status : Nat
  stdout : String
  stderr : String
  files : Files.Tree

/-- The words for a task that failed. -/
def failureText (task : String) (message : String) (hint : Bool) : String :=
  programName ++ " " ++ task ++ " failed: " ++ message ++ "\n" ++
    if hint then "Run with --verbose for more details.\n" else ""

/-- The lines that the console shows of a log. -/
def consoleText (setup : Log.Setup) (logs : List Log.Entry) : String :=
  Text.joined "" ((logs.filter setup.shows).map Log.Entry.consoleLine)

/-- Opens a log file, which is created if it is missing. Steps upwards in its path are taken without
    a look at the files. -/
def openLog (files : Files.Tree) (time path : String) : Except Failure (Files.Tree × LogFile) :=
  let place : Files.Path := ⟨true, files.resolve (Files.Path.ofText path)⟩
  match files.append place [] with
  | .error e => .error (.unwritable e)
  | .ok files => .ok (files, ⟨place, time⟩)

/-- How a run starts. A log file is opened before anything else. -/
def Progress.start (s : Surroundings) : Option String → Except Failure Progress
  | none => .ok ⟨s.files, none, []⟩
  | some path => do
    let (files, l) ← openLog s.files s.time path
    return ⟨files, some l, []⟩

/-- Runs the resolving of symbols. -/
def runResolve [CharacterNames] (s : Surroundings) (r : Request) (input : String)
    (output config logFile : Option String) : Except Failure Finished := do
  let setup := Log.setup r.verbose r.quiet (Record.filled logFile).isSome
  let (p, result) := resolveFile (← Progress.start s (Record.filled logFile)) input output config
  let console := consoleText setup p.logs
  match result with
  | .ok o => return ⟨0, ← printed p.files output o, console, p.files⟩
  | .error e => match e.handling with
    | .crash => throw e
    | .briefly => return ⟨1, "", console ++ failureText resolveName e.message false, p.files⟩
    | .withHint => return ⟨1, "", console ++ failureText resolveName e.message true, p.files⟩

/-- The comment to show the tags of. -/
def readComment (files : Files.Tree) (stdin path : String) : Except Files.ReadError String :=
  if path = "-" then .ok stdin else files.readText (Files.Path.ofText path).text

/-- Runs the showing of tags. A file that cannot be opened is reported. -/
def runTokenize (s : Surroundings) (path : String) : Except Failure Finished :=
  match readComment s.files s.stdin path with
  | .error (.file (.trouble t given)) =>
    let message := (Files.FileError.trouble t given).message
    .ok ⟨1, "", failureText tokenizeName message false, s.files⟩
  | .error e => .error (.unreadable e)
  | .ok comment => match Tag.report (Comment.tags (some comment)) with
    | .error e => .error (.report e)
    | .ok text => .ok ⟨0, text, "", s.files⟩

/-- Runs a command line. -/
def run [CharacterNames] (s : Surroundings) (words : List String) : Except Failure Finished :=
  match Request.read words with
  | .error (.help program) => .ok ⟨0, usage program ++ "\n", "", s.files⟩
  | .error (.misused program problem) =>
    .ok ⟨2, "", usage program ++ "\n" ++ program ++ ": error: " ++ problem.message ++ "\n", s.files⟩
  | .ok r => match r.task with
    | .resolve input output config logFile => runResolve s r input output config logFile
    | .tokenize path => runTokenize s path

end DocGraph.Command
