/-! The log of a run. -/

namespace DocGraph.Log

/-- How important an entry is. -/
inductive Level where
  | debug
  | info
  | warning
  deriving DecidableEq

/-- The rank of a level. -/
def Level.rank : Level → Nat
  | debug => 0
  | info => 1
  | warning => 2

/-- The name of a level. -/
def Level.name : Level → String
  | debug => "DEBUG"
  | info => "INFO"
  | warning => "WARNING"

/-- The part of the program that an entry comes from. -/
inductive Source where
  | rules
  | intake
  | resolution
  | pipeline
  deriving DecidableEq

/-- The name under which a part logs. -/
def Source.name : Source → String
  | rules => "rules"
  | intake => "factory"
  | resolution => "resolver"
  | pipeline => "orchestrator"

/-- One entry. -/
structure Entry where
  level : Level
  source : Source
  message : String
  deriving DecidableEq

/-- The name of the program's log. -/
def rootName : String := "tagdoc"

/-- The name of a log below the program's. -/
def childName : Option String → String
  | none => rootName
  | some name => if name.isEmpty then rootName else rootName ++ "." ++ name

/-- Where entries go: the least level that is logged at all, the least level shown on the console,
    and whether a file takes every entry. -/
structure Setup where
  level : Level
  console : Level
  toFile : Bool
  deriving DecidableEq

/-- The console's level: `verbose` shows everything, `quiet` only warnings; `verbose` wins. -/
def consoleLevel (verbose quiet : Bool) : Level :=
  if verbose then .debug else if quiet then .warning else .info

/-- The setup for the given switches. With a file everything is logged. -/
def setup (verbose quiet toFile : Bool) : Setup :=
  let console := consoleLevel verbose quiet
  ⟨if toFile then .debug else console, console, toFile⟩

/-- The levels of the places that entries go to: the console's, and the file's if there is one. -/
def Setup.handlers (s : Setup) : List Level := s.console :: if s.toFile then [.debug] else []

/-- Whether the console shows an entry. -/
def Setup.shows (s : Setup) (e : Entry) : Bool := s.console.rank ≤ e.level.rank

/-- An entry as a line of the console. -/
def Entry.consoleLine (e : Entry) : String :=
  "[" ++ rootName ++ "] " ++ e.level.name ++ " " ++ e.message ++ "\n"

/-- An entry as a line of a log file, with the time in front. -/
def Entry.fileLine (time : String) (e : Entry) : String :=
  time ++ " " ++ e.level.name ++ " " ++ rootName ++ "." ++ e.source.name ++ ": " ++
    e.message ++ "\n"

end DocGraph.Log
