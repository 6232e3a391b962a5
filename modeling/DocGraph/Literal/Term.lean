import DocGraph.Literal.Token

/-! Expressions.

    A term is what brackets, commas and operators make of the tokens. Only some terms can have a
    value; all others are read too, since a text is an expression or none as a whole, and the parts
    of an expression that have values are looked at before one that has none is met.

    Operators bind by levels: `or` and `and` most loosely, then `not`, comparisons, the operators on
    bits, shifts, sums, products, signs, and powers most tightly. -/

namespace DocGraph.Literal

/-- An expression. -/
inductive Term where
  | constant (v : Value)
  /-- A name, in plain letters. -/
  | name (cs : List Char)
  | plus (t : Term)
  | minus (t : Term)
  | sum (a b : Term)
  | difference (a b : Term)
  | tuple (items : List Term)
  | list (items : List Term)
  | set (items : List Term)
  /-- Keys and values. The key of something that is unpacked into the dictionary is `other`. -/
  | dict (entries : List (Term × Term))
  | emptySet
  /-- Something that is unpacked into a list of terms. -/
  | starred (t : Term)
  /-- An attribute or an item of something. -/
  | place
  /-- Any other expression. -/
  | other

/-! ### Words -/

/-- The words that are no names. -/
def keywords : List String :=
  ["False", "None", "True", "and", "as", "assert", "async", "await", "break", "class", "continue",
    "def", "del", "elif", "else", "except", "finally", "for", "from", "global", "if", "import",
    "in", "is", "lambda", "nonlocal", "not", "or", "pass", "raise", "return", "try", "while",
    "with", "yield"]

/-- Whether a word is no name. -/
def isKeyword (cs : List Char) : Bool := keywords.any fun k => k.toList = cs

/-- The tokens behind a word of the language, if it comes next. -/
def afterWord? (word : String) : List Token → Option (List Token)
  | .word cs :: rest => if cs = word.toList then some rest else none
  | _ => none

/-- The tokens behind a mark, if it comes next. -/
def afterMark? (c : Char) : List Token → Option (List Token)
  | .mark d :: rest => if d = c then some rest else none
  | _ => none

/-- The tokens behind an operator, if it comes next. -/
def afterOperator? (operator : String) : List Token → Option (List Token)
  | .operator cs :: rest => if cs = operator.toList then some rest else none
  | _ => none

/-- The tokens behind a name, if one comes next. -/
def afterName? : List Token → Option (List Token)
  | .word cs :: rest => if isKeyword cs then none else some rest
  | _ => none

/-- Whether a clause of a comprehension comes next. -/
def startsClause (ts : List Token) : Bool :=
  (afterWord? "for" ts).isSome || (((afterWord? "async" ts).bind (afterWord? "for")).isSome)

/-- The tokens behind a name and the mark that names a value, if they come next. -/
def afterNaming? (ts : List Token) : Option (List Token) :=
  (afterName? ts).bind (afterOperator? ":=")

/-- Whether a list of terms ends here. -/
def closes : List Token → Bool
  | [] => true
  | .mark c :: _ => c = ')' || c = ']' || c = '\x7d'
  | _ => false

/-- The term of a word. -/
def wordTerm? (cs : List Char) : Option Term :=
  if cs = "None".toList then some (.constant .null)
  else if cs = "True".toList then some (.constant (.bool true))
  else if cs = "False".toList then some (.constant (.bool false))
  else if isKeyword cs then none
  else some (.name (cs.map Text.plainForm))

/-! ### Operators -/

/-- The level of negations in words; what they negate is on the same level. -/
def negationLevel : Nat := 3

/-- The level of what is unpacked. -/
def bitsLevel : Nat := 5

/-- The level of signs. -/
def signLevel : Nat := 11

/-- The level of powers. -/
def powerLevel : Nat := 12

/-- The operators between two terms and their levels. -/
def binaryOperators : List (String × Nat) :=
  [("==", 4), ("!=", 4), ("<=", 4), (">=", 4), ("<<", 8), (">>", 8), ("//", 10), ("**", powerLevel)]

/-- The marks between two terms and their levels. -/
def binaryMarks : List (Char × Nat) :=
  [('<', 4), ('>', 4), ('|', 5), ('^', 6), ('&', 7), ('+', 9), ('-', 9), ('*', 10), ('/', 10),
    ('%', 10), ('@', 10)]

/-- The words between two terms and their levels. -/
def binaryWords : List (String × Nat) := [("or", 1), ("and", 2), ("in", 4), ("is", 4)]

/-- What a mark makes of two terms. -/
def joinedBy (c : Char) (a b : Term) : Term :=
  if c = '+' then .sum a b else if c = '-' then .difference a b else .other

/-- The operator that comes next: its level, what it makes of two terms, and the tokens behind
    it. -/
def binary? : List Token → Option (Nat × (Term → Term → Term) × List Token)
  | .mark c :: rest =>
    (binaryMarks.find? fun m => m.1 = c).map fun m => (m.2, joinedBy c, rest)
  | .operator cs :: rest =>
    (binaryOperators.find? fun o => o.1.toList = cs).map fun o => (o.2, fun _ _ => .other, rest)
  | .word cs :: rest =>
    if cs = "not".toList then
      (afterWord? "in" rest).map fun rest => (4, fun _ _ => .other, rest)
    else (binaryWords.find? fun w => w.1.toList = cs).map fun w =>
      (w.2, fun _ _ => .other, if w.1 = "is" then (afterWord? "not" rest).getD rest else rest)
  | _ => none

/-- The level of what stands behind an operator of a level. -/
def behindLevel (level : Nat) : Nat := if level = powerLevel then signLevel else level + 1

/-! ### Targets -/

mutual

/-- Whether a term can be assigned to. -/
def Term.assignable : Term → Bool
  | .name _ => true
  | .place => true
  | .tuple items => allAssignable items
  | .list items => allAssignable items
  | _ => false

/-- Whether all terms can be assigned to, some of them perhaps as what is unpacked. -/
def allAssignable : List Term → Bool
  | [] => true
  | .starred t :: ts => t.assignable && allAssignable ts
  | t :: ts => t.assignable && allAssignable ts

end

/-! ### Quoted texts -/

/-- Whether a token is quoted. -/
def isQuoted : Token → Bool
  | .text _ => true
  | .bytes _ => true
  | .formatted .. => true
  | _ => false

/-- The text that tokens join to, if all of them are texts. -/
def joinTexts? : List Token → Option (List Char)
  | [] => some []
  | .text cs :: rest => (joinTexts? rest).map (cs ++ ·)
  | _ => none

/-- The byte string that tokens join to, if all of them are byte strings. -/
def joinBytes? : List Token → Option (List UInt8)
  | [] => some []
  | .bytes bs :: rest => (joinBytes? rest).map (bs ++ ·)
  | _ => none

/-- The text up to the next expression in a formatted text, escapes unread, and what is left from
    its brace on. Braces stand for themselves when doubled, outside of `inner` formats; `naming`
    says that those around the name of a character are open. -/
def formattedText (raw inner : Bool) : Bool → List Char → Option (List Char × List Char)
  | _, [] => some ([], [])
  | true, c :: rest =>
    (formattedText raw inner (c != '\x7d') rest).map fun r => (c :: r.1, r.2)
  | false, '\\' :: c :: rest =>
    if raw || c = '\x7b' || c = '\x7d' then
      (formattedText raw inner false (c :: rest)).map fun r =>
        (if raw then '\\' :: r.1 else '\\' :: '\\' :: r.1, r.2)
    else
      let naming := c = 'N' && rest.head? == some '\x7b'
      (formattedText raw inner naming rest).map fun r => ('\\' :: c :: r.1, r.2)
  | false, c :: d :: rest =>
    if c = '\x7b' || c = '\x7d' then
      if !inner && c = d then (formattedText raw inner false rest).map fun r => (c :: r.1, r.2)
      else if !inner && c = '\x7d' then none
      else some ([], c :: d :: rest)
    else (formattedText raw inner false (d :: rest)).map fun r => (c :: r.1, r.2)
  | false, [c] =>
    if c = '\x7b' || (inner && c = '\x7d') then some ([], [c])
    else if c = '\x7d' then none
    else some ([c], [])

/-- The white space that an expression in a formatted text cannot consist of. -/
def isFormatBlank (c : Char) : Bool := c = ' ' || c = '\t' || c = '\n' || c = '\x0c'

/-- Whether a bracket closes another. -/
def matchesBracket (left right : Char) : Bool :=
  (left = '(' && right = ')') || (left = '[' && right = ']') || (left = '\x7b' && right = '\x7d')

/-- An expression in a formatted text up to the mark that ends it, and what is left from the mark
    on. `quote` is the quote that is open, with whether it is tripled, and `opened` lists the open
    brackets. -/
def formattedExpression (quote : Option (Char × Bool)) (opened : List Char) :
    List Char → Option (List Char × List Char)
  | [] => none
  | c :: rest =>
    let on (quote : Option (Char × Bool)) (opened : List Char) : Option (List Char × List Char) :=
      (formattedExpression quote opened rest).map fun r => (c :: r.1, r.2)
    if c = '\\' then none
    else match quote with
    | some (q, tripled) =>
      if c ≠ q then on quote opened
      else if !tripled then on none opened
      else match rest with
        | a :: b :: rest' =>
          if a = q && b = q then
            (formattedExpression none opened rest').map fun r => (c :: a :: b :: r.1, r.2)
          else on quote opened
        | _ => on quote opened
    | none =>
      if isQuote c then
        match rest with
        | a :: b :: rest' =>
          if a = c && b = c then
            (formattedExpression (some (c, true)) opened rest').map fun r =>
              (c :: a :: b :: r.1, r.2)
          else on (some (c, false)) opened
        | _ => on (some (c, false)) opened
      else if c = '(' || c = '[' || c = '\x7b' then on none (c :: opened)
      else if c = '#' then none
      else match opened with
        | bracket :: outer =>
          if c = ')' || c = ']' || c = '\x7d' then
            if matchesBracket bracket c then on none outer else none
          else on none opened
        | [] =>
          if c = ')' || c = ']' then none
          else if c = '\x7d' || c = ':' then some ([], c :: rest)
          else if c = '!' || c = '=' || c = '<' || c = '>' then
            match rest with
            | '=' :: rest' =>
              (formattedExpression none [] rest').map fun r => (c :: '=' :: r.1, r.2)
            | _ => if c = '<' || c = '>' then on none [] else some ([], c :: rest)
          else on none []

/-- What follows the name of a conversion, if one is asked for. -/
def afterConversion? : List Char → Option (List Char)
  | '!' :: c :: rest =>
    if (c = 's' || c = 'r' || c = 'a') && (rest.head?.any fun d => d = '\x7d' || d = ':') then
      some rest
    else none
  | cs => some cs

/-- What follows the mark that shows the expression itself, and blanks behind it. -/
def afterShown : List Char → List Char
  | '=' :: rest =>
    rest.dropWhile fun c => c = ' ' || ('\x09' ≤ c && c ≤ '\x0d')
  | cs => cs

/-! ### Reading terms -/

/-- Which arguments of a call may follow: any; no more plain ones; or no more unpacked lists
    either. -/
inductive ArgumentStage where
  | plain
  | named
  | unpacked
  deriving DecidableEq

/-- Which parameters of a function may follow. -/
structure ParameterStage where
  /-- How many there are so far. -/
  count : Nat
  /-- Whether the last one has a default. -/
  defaulted : Bool
  /-- Whether a slash has been met. -/
  slashed : Bool
  /-- Whether a star has been met. -/
  starred : Bool
  /-- Whether a parameter has to follow a star. -/
  wanted : Bool

/-- No parameters yet. -/
def ParameterStage.start : ParameterStage := ⟨0, false, false, false, false⟩

section Names

variable [CharacterNames]

mutual

/-- An expression. The first argument of this and of all readers below bounds the number of
    steps. -/
def expression : Nat → List Token → Option (Term × List Token)
  | 0, _ => none
  | n + 1, ts =>
    match afterWord? "lambda" ts with
    | some rest => do
      let rest ← parameters n .start rest
      let (_, rest) ← expression n rest
      some (.other, rest)
    | none => do
      let (t, rest) ← climb n 1 ts
      match afterWord? "if" rest with
      | none => some (t, rest)
      | some rest =>
        let (_, rest) ← climb n 1 rest
        let (_, rest) ← expression n (← afterWord? "else" rest)
        some (.other, rest)

/-- A term of operators of a level or higher ones. -/
def climb : Nat → Nat → List Token → Option (Term × List Token)
  | 0, _, _ => none
  | n + 1, level, ts =>
    match ts with
    | .mark '+' :: rest => do
      let (t, rest) ← climb n signLevel rest
      climbOn n level (.plus t) rest
    | .mark '-' :: rest => do
      let (t, rest) ← climb n signLevel rest
      climbOn n level (.minus t) rest
    | .mark '~' :: rest => do
      let (_, rest) ← climb n signLevel rest
      climbOn n level .other rest
    | _ =>
      match afterWord? "not" ts, afterWord? "await" ts with
      | some rest, _ => do
        if negationLevel < level then none
        else
          let (_, rest) ← climb n negationLevel rest
          climbOn n level .other rest
      | none, some rest => do
        let (_, rest) ← primary n rest
        climbOn n level .other rest
      | none, none => do
        let (t, rest) ← primary n ts
        climbOn n level t rest

/-- What operators of a level or higher ones make of a first term. -/
def climbOn : Nat → Nat → Term → List Token → Option (Term × List Token)
  | 0, _, _, _ => none
  | n + 1, level, t, ts =>
    match binary? ts with
    | none => some (t, ts)
    | some (found, joined, rest) =>
      if found < level then some (t, ts)
      else do
        let (u, rest) ← climb n (behindLevel found) rest
        climbOn n level (joined t u) rest

/-- An atom with its attributes, items and calls. -/
def primary : Nat → List Token → Option (Term × List Token)
  | 0, _ => none
  | n + 1, ts => do
    let (t, rest) ← atom n ts
    trailers n t rest

/-- What attributes, items and calls make of a term. -/
def trailers : Nat → Term → List Token → Option (Term × List Token)
  | 0, _, _ => none
  | n + 1, t, ts =>
    match ts with
    | .mark '.' :: rest => do trailers n .place (← afterName? rest)
    | .mark '(' :: .mark ')' :: rest =>
      match t with
      | .name cs => trailers n (if cs = "set".toList then .emptySet else .other) rest
      | _ => trailers n .other rest
    | .mark '(' :: rest => do trailers n .other (← argumentList n rest)
    | .mark '[' :: rest => do trailers n .place (← subscripts n rest)
    | _ => some (t, ts)

/-- A constant, a quoted text, a name or a bracketed term. -/
def atom : Nat → List Token → Option (Term × List Token)
  | 0, _ => none
  | n + 1, ts =>
    match ts with
    | .constant v :: rest => some (.constant v, rest)
    | .word cs :: rest => (wordTerm? cs).map fun t => (t, rest)
    | .mark '(' :: .mark ')' :: rest => some (.tuple [], rest)
    | .mark '(' :: rest =>
      match afterWord? "yield" rest with
      | some rest => do some (.other, ← afterMark? ')' (← yielded n rest))
      | none => do
        let (t, after) ← item n rest
        match afterMark? ')' after with
        | some after => match t with
          | .starred _ => none
          | t => some (t, after)
        | none =>
          if startsClause after then comprehension n t ')' after
          else
            let (items, after) ← itemsOn n t after
            some (.tuple items, ← afterMark? ')' after)
    | .mark '[' :: .mark ']' :: rest => some (.list [], rest)
    | .mark '[' :: rest => do
      let (t, after) ← item n rest
      if startsClause after then comprehension n t ']' after
      else
        let (items, after) ← itemsOn n t after
        some (.list items, ← afterMark? ']' after)
    | .mark '\x7b' :: .mark '\x7d' :: rest => some (.dict [], rest)
    | .mark '\x7b' :: rest =>
      match afterOperator? "**" rest with
      | some _ => do
        let (entries, after) ← entryList n rest
        some (.dict entries, ← afterMark? '\x7d' after)
      | none => do
        let (t, after) ← item n rest
        -- what is unpacked or given a name is no key
        let noKey := (afterNaming? rest).isSome || (afterMark? '*' rest).isSome
        match (if noKey then none else afterMark? ':' after) with
        | some after => do
          let (v, after) ← expression n after
          if startsClause after then comprehension n t '\x7d' after
          else
            let (entries, after) ← entriesOn n (t, v) after
            some (.dict entries, ← afterMark? '\x7d' after)
        | none =>
          if startsClause after then comprehension n t '\x7d' after
          else
            let (items, after) ← itemsOn n t after
            some (.set items, ← afterMark? '\x7d' after)
    | t :: _ => if isQuoted t then quotedTerm n (ts.takeWhile isQuoted) (ts.dropWhile isQuoted)
      else none
    | [] => none

/-- The term of quoted tokens in a row. Texts and byte strings cannot be mixed. -/
def quotedTerm : Nat → List Token → List Token → Option (Term × List Token)
  | 0, _, _ => none
  | n + 1, ts, rest =>
    match joinTexts? ts, joinBytes? ts with
    | some cs, _ => some (.constant (.str (String.ofList cs)), rest)
    | none, some bs => some (.constant (.bytes bs), rest)
    | none, none =>
      if ts.all fun t => match t with
          | .text _ => true
          | .formatted raw body => formats n raw 0 body = some []
          | _ => false
      then some (.other, rest) else none

/-- Checks a formatted text, or the format of an expression in one, and gives what is left of it.
    `depth` is the number of formats around it; expressions stand in the outermost two. -/
def formats : Nat → Bool → Nat → List Char → Option (List Char)
  | 0, _, _, _ => none
  | n + 1, raw, depth, cs => do
    let (text, rest) ← formattedText raw (depth ≠ 0) false cs
    if !raw && (decodeBody false 0 text).isNone then none
    else match rest with
      | '\x7b' :: rest =>
        if 2 ≤ depth then none
        else
          let (body, rest) ← formattedExpression none [] rest
          if body.all isFormatBlank then none
          else
            let (_, []) ← expression n (← tokens ('(' :: (body ++ [')']))) | none
            let rest ← afterConversion? (afterShown rest)
            let rest ← match rest with
              | ':' :: rest => formats n raw (depth + 1) rest
              | rest => some rest
            match rest with
            | '\x7d' :: rest => formats n raw depth rest
            | _ => none
      | rest => some rest

/-- A term, perhaps one to be unpacked. -/
def item : Nat → List Token → Option (Term × List Token)
  | 0, _ => none
  | n + 1, ts =>
    match afterMark? '*' ts with
    | some rest => do
      let (t, rest) ← climb n bitsLevel rest
      some (.starred t, rest)
    | none => namedTerm n ts

/-- An expression, perhaps one whose value is given a name. -/
def namedTerm : Nat → List Token → Option (Term × List Token)
  | 0, _ => none
  | n + 1, ts =>
    match afterNaming? ts with
    | some rest => do
      let (_, rest) ← expression n rest
      some (.other, rest)
    | none => expression n ts

/-- The terms from `t` on with commas between them; a comma may end them. -/
def itemsOn : Nat → Term → List Token → Option (List Term × List Token)
  | 0, _, _ => none
  | n + 1, t, ts =>
    match afterMark? ',' ts with
    | none => some ([t], ts)
    | some rest =>
      if closes rest then some ([t], rest)
      else do
        let (u, rest) ← item n rest
        let (us, rest) ← itemsOn n u rest
        some (t :: us, rest)

/-- One or more entries of a dictionary. -/
def entryList : Nat → List Token → Option (List (Term × Term) × List Token)
  | 0, _ => none
  | n + 1, ts =>
    match afterOperator? "**" ts with
    | some rest => do
      let (v, rest) ← climb n bitsLevel rest
      entriesOn n (.other, v) rest
    | none => do
      let (k, rest) ← expression n ts
      let (v, rest) ← expression n (← afterMark? ':' rest)
      entriesOn n (k, v) rest

/-- The entries from `e` on; a comma may end them. -/
def entriesOn : Nat → Term × Term → List Token → Option (List (Term × Term) × List Token)
  | 0, _, _ => none
  | n + 1, e, ts =>
    match afterMark? ',' ts with
    | none => some ([e], ts)
    | some rest =>
      if closes rest then some ([e], rest)
      else do
        let (es, rest) ← entryList n rest
        some (e :: es, rest)

/-- The clauses of a comprehension of a term, up to its closing bracket. -/
def comprehension : Nat → Term → Char → List Token → Option (Term × List Token)
  | 0, _, _, _ => none
  | n + 1, t, close, ts =>
    match t with
    | .starred _ => none
    | _ => do some (.other, ← afterMark? close (← clauses n ts))

/-- One or more clauses of a comprehension. -/
def clauses : Nat → List Token → Option (List Token)
  | 0, _ => none
  | n + 1, ts => do
    let rest ← targets n (← afterWord? "for" ((afterWord? "async" ts).getD ts))
    let (_, rest) ← climb n 1 rest
    let rest ← conditions n rest
    if startsClause rest then clauses n rest else some rest

/-- The conditions of a clause. -/
def conditions : Nat → List Token → Option (List Token)
  | 0, _ => none
  | n + 1, ts =>
    match afterWord? "if" ts with
    | none => some ts
    | some rest => do
      let (_, rest) ← climb n 1 rest
      conditions n rest

/-- What a clause assigns to, up to the word behind it. -/
def targets : Nat → List Token → Option (List Token)
  | 0, _ => none
  | n + 1, ts => do
    let (t, rest) ← primary n ((afterMark? '*' ts).getD ts)
    if !t.assignable then none
    else match afterMark? ',' rest with
      | none => afterWord? "in" rest
      | some rest => match afterWord? "in" rest with
        | some rest => some rest
        | none => targets n rest

/-- What is yielded, if anything. -/
def yielded : Nat → List Token → Option (List Token)
  | 0, _ => none
  | n + 1, ts =>
    match afterWord? "from" ts with
    | some rest => (expression n rest).map Prod.snd
    | none =>
      if closes ts then some ts
      else do
        let (_, rest) ← match afterMark? '*' ts with
          | some rest => climb n bitsLevel rest
          | none => expression n ts
        match afterMark? ',' rest with
        | none => some rest
        | some rest => yieldedOn n rest

/-- What is yielded behind a comma. -/
def yieldedOn : Nat → List Token → Option (List Token)
  | 0, _ => none
  | n + 1, ts =>
    if closes ts then some ts
    else do
      let (_, rest) ← match afterMark? '*' ts with
        | some rest => climb n bitsLevel rest
        | none => expression n ts
      match afterMark? ',' rest with
      | none => some rest
      | some rest => yieldedOn n rest

/-- The arguments of a call, at least one, up to its closing bracket. -/
def argumentList : Nat → List Token → Option (List Token)
  | 0, _ => none
  | n + 1, ts =>
    match afterMark? '*' ts, afterOperator? "**" ts, (afterName? ts).bind (afterMark? '=') with
    | none, none, none => do
      let (_, rest) ← namedTerm n ts
      if startsClause rest then afterMark? ')' (← clauses n rest)
      else argumentsOn n .plain rest
    | _, _, _ => arguments n .plain ts

/-- The arguments of a call from one on, up to its closing bracket. -/
def arguments : Nat → ArgumentStage → List Token → Option (List Token)
  | 0, _, _ => none
  | n + 1, stage, ts =>
    match afterMark? '*' ts, afterOperator? "**" ts, (afterName? ts).bind (afterMark? '=') with
    | some rest, _, _ =>
      if stage = .unpacked then none
      else do
        let (_, rest) ← expression n rest
        argumentsOn n stage rest
    | none, some rest, _ => do
      let (_, rest) ← expression n rest
      argumentsOn n .unpacked rest
    | none, none, some rest => do
      let (_, rest) ← expression n rest
      argumentsOn n (if stage = .unpacked then .unpacked else .named) rest
    | none, none, none =>
      if stage = .plain then do
        let (_, rest) ← namedTerm n ts
        argumentsOn n stage rest
      else none

/-- What follows an argument of a call. -/
def argumentsOn : Nat → ArgumentStage → List Token → Option (List Token)
  | 0, _, _ => none
  | n + 1, stage, ts =>
    match afterMark? ')' ts, afterMark? ',' ts with
    | some rest, _ => some rest
    | none, some rest => match afterMark? ')' rest with
      | some rest => some rest
      | none => arguments n stage rest
    | none, none => none

/-- What stands between the brackets of an item, up to the closing one. -/
def subscripts : Nat → List Token → Option (List Token)
  | 0, _ => none
  | n + 1, ts => do
    let rest ← match afterMark? '*' ts with
      | some rest => (expression n rest).map Prod.snd
      | none => subscript n ts
    match afterMark? ']' rest with
    | some rest => some rest
    | none => do
      let rest ← afterMark? ',' rest
      match afterMark? ']' rest with
      | some rest => some rest
      | none => subscripts n rest

/-- An index or a slice. -/
def subscript : Nat → List Token → Option (List Token)
  | 0, _ => none
  | n + 1, ts =>
    match afterMark? ':' ts with
    | some rest => sliceEnd n rest
    | none => do
      let (_, rest) ← namedTerm n ts
      match (if (afterNaming? ts).isSome then none else afterMark? ':' rest) with
      | some rest => sliceEnd n rest
      | none => some rest

/-- What follows the first colon of a slice. -/
def sliceEnd : Nat → List Token → Option (List Token)
  | 0, _ => none
  | n + 1, ts => do
    let rest ← sliceBound n ts
    match afterMark? ':' rest with
    | some rest => sliceBound n rest
    | none => some rest

/-- A bound of a slice, which may be missing. -/
def sliceBound : Nat → List Token → Option (List Token)
  | 0, _ => none
  | n + 1, ts =>
    if closes ts || (afterMark? ':' ts).isSome || (afterMark? ',' ts).isSome then some ts
    else (expression n ts).map Prod.snd

/-- The parameters of a function up to the colon behind them. -/
def parameters : Nat → ParameterStage → List Token → Option (List Token)
  | 0, _, _ => none
  | n + 1, stage, ts =>
    match afterMark? ':' ts, afterMark? '/' ts, afterMark? '*' ts, afterOperator? "**" ts with
    | some rest, _, _, _ => if stage.wanted then none else some rest
    | none, some rest, _, _ =>
      if stage.slashed || stage.starred || stage.count = 0 then none
      else parametersOn n { stage with slashed := true } rest
    | none, none, some rest, _ =>
      if stage.starred then none
      else match afterName? rest with
        | some rest => parametersOn n { stage with starred := true } rest
        | none => do
          let rest ← afterMark? ',' rest
          parameters n { stage with starred := true, wanted := true } rest
    | none, none, none, some rest =>
      if stage.wanted then none
      else do
        let rest ← afterName? rest
        afterMark? ':' ((afterMark? ',' rest).getD rest)
    | none, none, none, none => do
      let rest ← afterName? ts
      match afterMark? '=' rest with
      | some rest =>
        let (_, rest) ← expression n rest
        parametersOn n { stage with count := stage.count + 1, defaulted := true, wanted := false }
          rest
      | none =>
        if stage.defaulted && !stage.starred then none
        else parametersOn n { stage with count := stage.count + 1, wanted := false } rest

/-- What follows a parameter. -/
def parametersOn : Nat → ParameterStage → List Token → Option (List Token)
  | 0, _, _ => none
  | n + 1, stage, ts =>
    match afterMark? ',' ts with
    | some rest => parameters n stage rest
    | none => if (afterMark? ':' ts).isSome then parameters n stage ts else none

end

/-- The terms from `t` on that a whole text spells with commas between them; none is unpacked. -/
def termsOn (n : Nat) (t : Term) : Nat → List Token → Option (List Term)
  | 0, _ => none
  | k + 1, ts => do
    match ts with
    | [] => some [t]
    | _ =>
      let rest ← afterMark? ',' ts
      if rest.isEmpty then some [t]
      else
        let (u, rest) ← expression n rest
        (termsOn n u k rest).map (t :: ·)

/-- The term that the tokens of a text of some length spell: one expression, or several with commas
    between them, which form a tuple. -/
def term? (length : Nat) (ts : List Token) : Option Term := do
  let n := 16 * length + 16
  let (t, rest) ← expression n ts
  if rest.isEmpty then some t
  else (termsOn n t n rest).map .tuple

end Names

end DocGraph.Literal
