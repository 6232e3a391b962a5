import DocGraph.Command.Words
import DocGraph.Log

/-! What a command line asks for. -/

namespace DocGraph.Command

/-- What is asked for. -/
inductive Task where
  /-- To resolve a list of symbols. -/
  | resolve (input : String) (output config logFile : Option String)
  /-- To show the tags of a comment, from a file or, for a dash, from the standard input. -/
  | tokenize (path : String)
  deriving DecidableEq

/-- A task and the switches for the log. -/
structure Request where
  verbose : Bool
  quiet : Bool
  task : Task
  deriving DecidableEq

/-- Why a command line leads to no task. -/
inductive Stop where
  /-- The program of that name does not understand it. -/
  | misused (program : String) (problem : Problem)
  /-- It asks how the program of that name is used. -/
  | help (program : String)
  deriving DecidableEq

/-- Asks how the program is used. -/
def helpFlag : Flag := ⟨["-h", "--help"], .help⟩

/-- Asks for a longer log. -/
def verboseFlag : Flag := ⟨["-v", "--verbose"], .switch⟩

/-- Asks for a shorter log. -/
def quietFlag : Flag := ⟨["-q", "--quiet"], .switch⟩

/-- Says where the report goes. -/
def outputFlag : Flag := ⟨["-o", "--output"], .value⟩

/-- Says where the settings are. -/
def configFlag : Flag := ⟨["--config"], .value⟩

/-- Says where the log goes. -/
def logFileFlag : Flag := ⟨["--log-file"], .value⟩

/-- The options that stand everywhere. -/
def sharedFlags : List Flag := [helpFlag, verboseFlag, quietFlag]

/-- The name of the program. -/
def programName : String := Log.rootName

/-- The command that resolves a list of symbols. -/
def resolveName : String := "resolve"

/-- The command that shows the tags of a comment. -/
def tokenizeName : String := "tokenize"

/-- The commands. -/
def commandNames : List String := [resolveName, tokenizeName]

/-- The line as a whole: a command and its words. -/
def mainGrammar : Grammar := ⟨programName, sharedFlags, .everything "command"⟩

/-- The words of the command that resolves symbols. -/
def resolveGrammar : Grammar :=
  ⟨programName ++ " " ++ resolveName, sharedFlags ++ [outputFlag, configFlag, logFileFlag],
    .required "input"⟩

/-- The words of the command that shows tags. -/
def tokenizeGrammar : Grammar :=
  ⟨programName ++ " " ++ tokenizeName, sharedFlags, .optional "path"⟩

/-- What a grammar understands of words; a problem is the problem of its program. -/
def understand (g : Grammar) (words : List String) : Except Stop Taken :=
  match g.take words with
  | .error p => .error (.misused g.program p)
  | .ok t => if t.asksHelp then .error (.help g.program) else .ok t

/-- What the words behind a command ask for, and what was understood of them. -/
def readTask (name : String) (words : List String) : Except Stop (Taken × Task) :=
  if name = resolveName then do
    let t ← understand resolveGrammar words
    return (t, .resolve (t.word?.getD "") (t.value? outputFlag) (t.value? configFlag)
      (t.value? logFileFlag))
  else if name = tokenizeName then do
    let t ← understand tokenizeGrammar words
    return (t, .tokenize (t.word?.getD "-"))
  else throw (.misused programName (.invalidChoice "command" name commandNames))

/-- Reads a command line. Words that nothing took are refused last. -/
def Request.read (words : List String) : Except Stop Request := do
  let t ← understand mainGrammar words
  let (inner, task) ← match t.slot with
    | some (name :: rest) => readTask name rest
    | _ => throw (.misused programName (.missing "command"))
  match t.extra ++ inner.extra with
  | [] =>
    let has f := t.has f || inner.has f
    return ⟨has verboseFlag, has quietFlag, task⟩
  | words => throw (.misused programName (.unrecognized words))

/-- How a program is used, in one line. -/
def usage (program : String) : String :=
  if program = resolveGrammar.program then
    "usage: " ++ program ++
      " [-h] [-v] [-q] [-o OUTPUT] [--config CONFIG] [--log-file LOG_FILE] input"
  else if program = tokenizeGrammar.program then
    "usage: " ++ program ++ " [-h] [-v] [-q] [path]"
  else "usage: " ++ program ++ " [-h] [-v] [-q] \x7bresolve,tokenize\x7d ..."

end DocGraph.Command
