import DocGraph.Files.Path
import DocGraph.Text.Quoted
import DocGraph.Text.Utf8

/-! A snapshot of the files a run can see.

    A tree lists its files and directories by their names from its root, and knows the working
    directory that relative paths start from. Looking a path up follows it name by name, so a file
    in the middle of a path, a missing directory before a step upwards, or a name that is too long
    is noticed. A path with a null character in it leads nowhere at all. -/

namespace DocGraph.Files

/-- What a path can lead to. -/
inductive Node where
  | file (content : List UInt8)
  | directory
  deriving DecidableEq

/-- A snapshot of files. The root is a directory and is not listed. -/
structure Tree where
  entries : List (List String × Node)
  /-- The working directory, from the root. -/
  here : List String

/-- Why a path cannot be used. -/
inductive Trouble where
  | notFound
  | alreadyThere
  | notDirectory
  | isDirectory
  | nameTooLong
  deriving DecidableEq

/-- What a path is used for. -/
inductive Purpose where
  | opening
  | making
  | resolving
  deriving DecidableEq

/-- A path that cannot be used. -/
inductive FileError where
  /-- The path, as it was given, leads to trouble. -/
  | trouble (t : Trouble) (path : String)
  /-- There is a null character in the path. -/
  | nullCharacter (purpose : Purpose)
  deriving DecidableEq

/-- The number and the words of a trouble. -/
def Trouble.message : Trouble → String
  | notFound => "[Errno 2] No such file or directory"
  | alreadyThere => "[Errno 17] File exists"
  | notDirectory => "[Errno 20] Not a directory"
  | isDirectory => "[Errno 21] Is a directory"
  | nameTooLong => "[Errno 36] File name too long"

/-- The error in words; a path is quoted. -/
def FileError.message : FileError → String
  | trouble t path => t.message ++ ": " ++ Text.quoted path
  | nullCharacter .opening => "embedded null byte"
  | nullCharacter .making => "mkdir: embedded null character in path"
  | nullCharacter .resolving => "lstat: embedded null character in path"

/-- The largest number of bytes of a name. -/
def nameLimit : Nat := 255

/-- The largest number of bytes of a path. -/
def pathLimit : Nat := 4095

/-- Whether there is a null character in a text. -/
def hasNull (s : String) : Bool := Text.hasChar s '\x00'

/-- A place that a path leads to: inside the tree, by its names from the root, or above it. -/
inductive Place where
  | inside (names : List String)
  | above

namespace Tree

/-- The node at a place inside the tree. -/
def nodeAt (t : Tree) (names : List String) : Option Node :=
  if names.isEmpty then some .directory
  else (t.entries.find? fun e => e.1 = names).map Prod.snd

/-- What lies at a place. -/
def node? (t : Tree) : Place → Option Node
  | .inside names => t.nodeAt names
  | .above => some .directory

/-- One step from a directory. -/
def stepTo (place : Place) (name : String) : Option Place :=
  match place with
  | .inside names =>
    if name = ".." then some (if names.isEmpty then .above else .inside names.dropLast)
    else some (.inside (names ++ [name]))
  | .above => if name = ".." then some .above else none

/-- Follows names from a place. Every place before a further name must be a directory. -/
def follow (t : Tree) (place : Place) : List String → Except Trouble Place
  | [] => .ok place
  | name :: more =>
    match t.node? place with
    | none => .error .notFound
    | some (.file _) => .error .notDirectory
    | some .directory =>
      if nameLimit < name.utf8ByteSize then .error .nameTooLong
      else match stepTo place name with
        | none => .error .notFound
        | some next => t.follow next more

/-- The directory that a path starts from. -/
def startOf (t : Tree) (p : Path) : List String := if p.absolute then [] else t.here

/-- Where a path leads; the last name need not exist. -/
def locate (t : Tree) (p : Path) : Except Trouble Place :=
  if pathLimit < p.text.utf8ByteSize then .error .nameTooLong
  else t.follow (.inside (t.startOf p)) p.names

/-- The names of a path from the root, with the names for the directory above resolved. -/
def resolve (t : Tree) (p : Path) : List String := Path.resolveFrom (t.startOf p) p.names

/-- The node that a path leads to, if there is one. -/
def find? (t : Tree) (p : Path) : Option Node :=
  match t.locate p with
  | .ok place => t.node? place
  | .error _ => none

/-- The bytes of a file given by a text; the text is named in a refusal. -/
def readBytes (t : Tree) (s : String) : Except FileError (List UInt8) :=
  if s.isEmpty then .error (.trouble .notFound s)
  else if hasNull s then .error (.nullCharacter .opening)
  else if pathLimit < s.utf8ByteSize then .error (.trouble .nameTooLong s)
  else match t.locate (Path.ofText s) with
    | .error trouble => .error (.trouble trouble s)
    | .ok place => match t.node? place with
      | none => .error (.trouble .notFound s)
      | some .directory => .error (.trouble .isDirectory s)
      | some (.file content) =>
        if s.toList.getLast? = some '/' then .error (.trouble .notDirectory s) else .ok content

/-- Puts a node at a place inside the tree. -/
def put (t : Tree) (names : List String) (n : Node) : Tree :=
  if (t.entries.any fun e => e.1 = names) then
    { t with entries := t.entries.map fun e => if e.1 = names then (names, n) else e }
  else { t with entries := t.entries ++ [(names, n)] }

/-- Puts a node at a place inside the tree, together with the directories above it. -/
def plant (t : Tree) (names : List String) (n : Node) : Tree :=
  let above := (List.range names.length).map fun k => names.take k
  (above.foldl (fun t d => if (t.nodeAt d).isSome then t else t.put d .directory) t).put names n

/-- Writes a file, which replaces one at its path. -/
def write (t : Tree) (p : Path) (content : List UInt8) : Except FileError Tree :=
  if hasNull p.text then .error (.nullCharacter .opening)
  else match t.locate p with
    | .error trouble => .error (.trouble trouble p.text)
    | .ok .above => .error (.trouble .isDirectory p.text)
    | .ok (.inside names) => match t.nodeAt names with
      | some .directory => .error (.trouble .isDirectory p.text)
      | _ => .ok (t.put names (.file content))

/-- Adds bytes to the end of a file, which is created if it is missing. -/
def append (t : Tree) (p : Path) (content : List UInt8) : Except FileError Tree :=
  let before := match t.find? p with
    | some (.file content) => content
    | _ => []
  t.write p (before ++ content)

/-- Creates a single directory. -/
def makeOne (t : Tree) (p : Path) : Except Trouble Tree :=
  match t.locate p with
  | .error trouble => .error trouble
  | .ok place => match t.node? place, place with
    | some _, _ => .error .alreadyThere
    | none, .inside names => .ok (t.put names .directory)
    | none, .above => .error .alreadyThere

/-- Creates a directory together with those above it that are missing. A directory that is already
    there is accepted. The first argument bounds the number of directories above. -/
def makeDirectories : Nat → Tree → Path → Except FileError Tree
  | 0, _, p => .error (.trouble .notFound p.text)
  | n + 1, t, p =>
    let accept (t : Tree) (trouble : Trouble) : Except FileError Tree :=
      if t.find? p = some .directory then .ok t else .error (.trouble trouble p.text)
    if hasNull p.text then .error (.nullCharacter .making)
    else match t.makeOne p with
    | .ok t' => .ok t'
    | .error .notFound =>
      if p.names.isEmpty then .error (.trouble .notFound p.text)
      else match makeDirectories n t p.parent with
        | .error e => .error e
        | .ok t' => match t'.makeOne p with
          | .ok t'' => .ok t''
          | .error trouble => accept t' trouble
    | .error trouble => accept t trouble

end Tree

/-- Why a text file cannot be read. -/
inductive ReadError where
  | file (e : FileError)
  | undecodable (e : Text.DecodeError)
  deriving DecidableEq

/-- The text in bytes. Every line break becomes a line feed. -/
def textOf (bytes : List UInt8) : Except ReadError String :=
  match Text.decode bytes with
  | .error e => .error (.undecodable e)
  | .ok cs => .ok (String.ofList (Text.toLineFeeds cs))

/-- The text of a file. -/
def Tree.readText (t : Tree) (s : String) : Except ReadError String :=
  match t.readBytes s with
  | .error e => .error (.file e)
  | .ok bytes => textOf bytes

/-- The text of the file at a place from the root, when something is there. -/
def Tree.textAt? (t : Tree) (names : List String) : Option (Except ReadError String) :=
  match t.nodeAt names with
  | none => none
  | some .directory => some (.error (.file (.trouble .isDirectory ("/" ++ Text.joined "/" names))))
  | some (.file bytes) => some (textOf bytes)

/-- The refusal in words. -/
def ReadError.message : ReadError → String
  | file e => e.message
  | undecodable e => e.message

end DocGraph.Files
