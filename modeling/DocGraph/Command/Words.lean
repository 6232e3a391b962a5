import DocGraph.Named
import DocGraph.Text.Basic
import DocGraph.Text.Decimal
import DocGraph.Text.Quoted

/-! The words of a command line.

    A word with a dash at its head is an option if it names one, and an unknown option otherwise,
    unless it is a dash alone, a negative number or has a blank in it. A long option may be cut
    short as long as only one fits, and takes a value behind an equals sign; short ones may share a
    dash, and take a value right behind their letter. Behind two dashes alone no word is an option.
    All other words are plain. -/

namespace DocGraph.Command

/-- What an option is for. -/
inductive Purpose where
  /-- To switch something on. -/
  | switch
  /-- To set something to a value. -/
  | value
  /-- To ask for help, and nothing else. -/
  | help
  deriving DecidableEq

/-- An option. -/
structure Flag where
  names : List String
  purpose : Purpose
  deriving DecidableEq

/-- Whether an option takes a value. -/
def Flag.takesValue (f : Flag) : Bool := f.purpose = .value

/-- The name of an option in errors. -/
def Flag.label (f : Flag) : String := Text.joined "/" f.names

/-- What plain words are taken for. -/
inductive Slot where
  /-- One word, which must be there. -/
  | required (name : String)
  /-- One word, which may be missing. -/
  | optional (name : String)
  /-- A word and everything behind it. -/
  | everything (name : String)
  deriving DecidableEq

/-- What a program, or a part of one, understands. -/
structure Grammar where
  program : String
  flags : List Flag
  slot : Slot

/-- Why words are not understood. -/
inductive Problem where
  | ambiguous (word : String) (names : List String)
  | expectedValue (flag : Flag)
  | ignoredValue (flag : Flag) (value : String)
  | missing (name : String)
  | invalidChoice (name word : String) (choices : List String)
  | unrecognized (words : List String)
  deriving DecidableEq

/-- The problem in words. -/
def Problem.message : Problem → String
  | ambiguous word names =>
    "ambiguous option: " ++ word ++ " could match " ++ Text.joined ", " names
  | expectedValue flag => "argument " ++ flag.label ++ ": expected one argument"
  | ignoredValue flag value =>
    "argument " ++ flag.label ++ ": ignored explicit argument " ++ Text.quoted value
  | missing name => "the following arguments are required: " ++ name
  | invalidChoice name word choices =>
    "argument " ++ name ++ ": invalid choice: " ++ Text.quoted word ++ " (choose from " ++
      Text.joined ", " (choices.map Text.quoted) ++ ")"
  | unrecognized words => "unrecognized arguments: " ++ Text.joined " " words

/-! ### Kinds of words -/

/-- What a word is. -/
inductive Kind where
  /-- An option under one of its names. -/
  | flag (f : Flag) (name : String) (attached : Option (List Char))
  /-- Something like an option. -/
  | unknown
  | plain
  /-- Two dashes alone. -/
  | separator
  deriving DecidableEq

namespace Grammar

/-- All names of options, in order. -/
def names (g : Grammar) : Named Flag := g.flags.flatMap fun f => f.names.map fun n => (n, f)

/-- The options that a word can stand for. -/
def candidates (g : Grammar) (word : List Char) : List Kind :=
  match word with
  | '-' :: '-' :: _ =>
    let (head, value) := Text.cut '=' word
    (g.names.filter fun n => head.isPrefixOf n.1.toList).map fun n =>
      .flag n.2 n.1 value
  | _ =>
    g.names.filterMap fun n =>
      if n.1.toList = word.take 2 then some (.flag n.2 n.1 (some (word.drop 2)))
      else if word.isPrefixOf n.1.toList then some (.flag n.2 n.1 none)
      else none

/-- The name that an option is given under. -/
def nameOf : Kind → String
  | .flag _ name _ => name
  | _ => ""

/-- Whether a word is a negative number, perhaps with a line feed behind it. The digits may be those
    of any script. -/
def isNegativeNumber : List Char → Bool
  | '-' :: rest =>
    let body := if rest.getLast? = some '\n' then rest.dropLast else rest
    let (whole, part) := Text.cut '.' body
    whole.all Text.isDecimalDigit && match part with
      | none => !whole.isEmpty
      | some digits => !digits.isEmpty && digits.all Text.isDecimalDigit
  | _ => false

/-- What a word other than two dashes is. -/
def classify (g : Grammar) (word : String) : Except Problem Kind :=
  let cs := word.toList
  let (head, value) := Text.cut '=' cs
  if cs.head? ≠ some '-' then .ok .plain
  else match g.names.get? word, g.names.get? (String.ofList head), value with
    | some f, _, _ => .ok (.flag f word none)
    | none, some f, some v =>
      if cs.length = 1 then .ok .plain else .ok (.flag f (String.ofList head) (some v))
    | none, _, _ =>
      if cs.length = 1 then .ok .plain
      else match g.candidates cs with
        | [k] => .ok k
        | [] => .ok (if isNegativeNumber cs || cs.contains ' ' then .plain else .unknown)
        | ks => .error (.ambiguous word (ks.map nameOf))

/-- What the words of a line are. -/
def classifyAll (g : Grammar) : List String → Except Problem (List (String × Kind))
  | [] => .ok []
  | w :: ws =>
    if w = "--" then .ok ((w, .separator) :: ws.map fun x => (x, .plain))
    else do return (w, ← g.classify w) :: (← g.classifyAll ws)

end Grammar

/-! ### Taking words -/

/-- What has been understood of a line. -/
structure Taken where
  /-- The options given, each with its value if it takes one. -/
  flags : List (Flag × Option String)
  /-- The words that the slot took. -/
  slot : Option (List String)
  /-- The words that nothing took. -/
  extra : List String

/-- Nothing taken yet. -/
def Taken.empty : Taken := ⟨[], none, []⟩

/-- Notes an option. -/
def Taken.addFlag (t : Taken) (f : Flag) (value : Option String) : Taken :=
  { t with flags := t.flags ++ [(f, value)] }

/-- Notes words that nothing takes. -/
def Taken.addExtra (t : Taken) (words : List String) : Taken :=
  { t with extra := t.extra ++ words }

/-- Whether help was asked for. -/
def Taken.asksHelp (t : Taken) : Bool := t.flags.any fun f => f.1.purpose = .help

/-- Whether a word is an option or like one. -/
def isFlagLike : Kind → Bool
  | .flag .. => true
  | .unknown => true
  | _ => false

/-- Whether a word is two dashes alone. -/
def isSeparator (w : String × Kind) : Bool := w.2 = .separator

/-- Whether a word is plain. -/
def isPlain (w : String × Kind) : Bool := w.2 = .plain

/-- The number of words at the head that a slot takes, if it can take any. -/
def slotCount (slot : Slot) (words : List (String × Kind)) : Option Nat :=
  let before := (words.takeWhile isSeparator).length
  let rest := words.drop before
  let found := rest.head?.any isPlain
  let behind := ((rest.drop 1).takeWhile isSeparator).length
  match slot with
  | .required _ => if found then some (before + 1 + behind) else none
  | .optional _ => some (if found then before + 1 + behind else before)
  | .everything _ => if found then some words.length else none

/-- Fills the slot from the head of the words, unless that has been done, and gives the words that
    are left. -/
def takeSlot (slot : Slot) (t : Taken) (words : List (String × Kind)) :
    Taken × List (String × Kind) :=
  match t.slot, slotCount slot words with
  | none, some n => ({ t with slot := some ((words.take n).map Prod.fst) }, words.drop n)
  | _, _ => (t, words)

/-- Takes an option without an attached value; its value is the next plain word. -/
def takeAlone (f : Flag) (t : Taken) (words : List (String × Kind)) :
    Except Problem (Taken × List (String × Kind)) :=
  if f.takesValue then match words with
    | (w, .plain) :: rest => .ok (t.addFlag f (some w), rest)
    | _ => .error (.expectedValue f)
  else .ok (t.addFlag f none, words)

/-- Takes options that share a dash: `f`, and those whose letters stand behind its own. What stands
    behind an option with a value is its value; a character that is no option is refused. -/
def takeCluster (g : Grammar) (f : Flag) (t : Taken) (words : List (String × Kind)) :
    List Char → Except Problem (Taken × List (String × Kind))
  | [] => .error (.ignoredValue f "")
  | c :: rest =>
    if f.takesValue then .ok (t.addFlag f (some (String.ofList (c :: rest))), words)
    else match g.names.get? (String.ofList ['-', c]), rest with
      | none, _ => .error (.ignoredValue f (String.ofList (c :: rest)))
      | some next, [] => takeAlone next (t.addFlag f none) words
      | some next, d :: more => takeCluster g next (t.addFlag f none) words (d :: more)

/-- Takes an option with the words it needs. -/
def takeFlag (g : Grammar) (f : Flag) (name : String) (attached : Option (List Char)) (t : Taken)
    (words : List (String × Kind)) : Except Problem (Taken × List (String × Kind)) :=
  match attached with
  | none => takeAlone f t words
  | some value =>
    if f.takesValue then .ok (t.addFlag f (some (String.ofList value)), words)
    else if Text.startsWith name "--" then .error (.ignoredValue f (String.ofList value))
    else takeCluster g f t words value

/-- Takes words up to the last option, or up to one that asks for help: the slot is filled from
    plain words before an option, and what it does not take is left over. The first argument bounds
    the number of steps. -/
def takeFrom (g : Grammar) : Nat → Taken → List (String × Kind) →
    Except Problem (Taken × List (String × Kind))
  | 0, t, words => .ok (t, words)
  | k + 1, t, words =>
    if !words.any fun w => isFlagLike w.2 then .ok (t, words)
    else match words with
      | [] => .ok (t, [])
      | (w, kind) :: rest => match kind with
        | .flag f name attached => do
          let (t, rest) ← takeFlag g f name attached t rest
          if t.asksHelp then return (t, rest) else takeFrom g k t rest
        | .unknown => takeFrom g k (t.addExtra [w]) rest
        | _ =>
          let (t', left) := takeSlot g.slot t words
          if left.length < words.length then takeFrom g k t' left
          else
            let skipped := words.takeWhile fun w => !isFlagLike w.2
            takeFrom g k (t'.addExtra (skipped.map Prod.fst)) (words.drop skipped.length)

/-- The name of what a slot takes, if it must be there. -/
def Slot.requiredName? : Slot → Option String
  | .required name => some name
  | .optional _ => none
  | .everything name => some name

/-- What a grammar understands of a line. -/
def Grammar.take (g : Grammar) (words : List String) : Except Problem Taken := do
  let kinds ← g.classifyAll words
  let (t, rest) ← takeFrom g (kinds.length + 1) .empty kinds
  if t.asksHelp then return t
  let (t, rest) := takeSlot g.slot t rest
  let t := t.addExtra (rest.map Prod.fst)
  match t.slot, g.slot.requiredName? with
  | none, some name => throw (.missing name)
  | _, _ => return t

/-- The word in a slot for one word, without two dashes alone before it. -/
def Taken.word? (t : Taken) : Option String :=
  (((t.slot.getD []).erase "--")).head?

/-- Whether an option was given. -/
def Taken.has (t : Taken) (f : Flag) : Bool := t.flags.any fun g => g.1 = f

/-- The value of an option; the last one given counts. -/
def Taken.value? (t : Taken) (f : Flag) : Option String :=
  ((t.flags.filter fun g => g.1 = f).getLast?).bind Prod.snd

end DocGraph.Command
