import DocGraph.Proofs.Value.Data

/-! The tokens of written data.

    Every value has its tokens (`tokensOf`), and the written form of plain data is cut into exactly
    these, wherever it stands in an expression (`piece_data`). A piece of an expression is followed
    by what cannot belong to it (`Ends`); `Spells` says what a piece is cut into, and pieces are put
    together one by one. -/

namespace DocGraph.Literal

/-- The marks that can follow a value. -/
def closers : List Char := [',', ':', ')', ']', '\x7d']

theorem mem_closers {c : Char} (h : c ∈ closers) :
    c = ',' ∨ c = ':' ∨ c = ')' ∨ c = ']' ∨ c = '\x7d' := by
  simpa [closers] using h

/-- The brackets that open a sequence. -/
def leftBrackets : List Char := ['(', '[', '\x7b']

/-- The brackets that close one. -/
def rightBrackets : List Char := [')', ']', '\x7d']

theorem mem_leftBrackets {c : Char} (h : c ∈ leftBrackets) : c = '(' ∨ c = '[' ∨ c = '\x7b' := by
  simpa [leftBrackets] using h

theorem mem_rightBrackets {c : Char} (h : c ∈ rightBrackets) : c = ')' ∨ c = ']' ∨ c = '\x7d' := by
  simpa [rightBrackets] using h

theorem mem_closers_of_mem_rightBrackets {c : Char} (h : c ∈ rightBrackets) : c ∈ closers := by
  rcases mem_rightBrackets h with rfl | rfl | rfl <;> decide

/-- Nothing follows, or a mark that cannot belong to a value. -/
def Ends (rest : List Char) : Prop := ∀ c ∈ rest.head?, c ∈ closers

theorem Ends.stops {p : Char → Bool} {rest : List Char} (h : Ends rest)
    (hp : closers.any p = false) : ∀ c ∈ rest.head?, p c = false := by
  intro c hc
  exact Bool.eq_false_iff.mpr (List.any_eq_false.mp hp c (h c hc))

theorem Ends.cases {rest : List Char} (h : Ends rest) :
    rest = [] ∨ ∃ more, rest = ',' :: more ∨ rest = ':' :: more ∨ rest = ')' :: more ∨
      rest = ']' :: more ∨ rest = '\x7d' :: more := by
  cases rest with
  | nil => exact .inl rfl
  | cons c more =>
    have hc := mem_closers (h c rfl)
    exact .inr ⟨more, by simpa using hc⟩

theorem ends_nil : Ends [] := nofun

theorem ends_cons {c : Char} (h : c ∈ closers) (rest : List Char) : Ends (c :: rest) := by
  intro d hd
  cases hd
  exact h

/-! ### Numbers -/

theorem digitRun_append {base : Nat} {ds rest : List Char} (hne : ds ≠ [])
    (hds : ∀ c ∈ ds, Number.isDigitOf base c = true)
    (hrest : ∀ c ∈ rest.head?, (Number.isDigitOf base c || c = '_') = false) :
    digitRun base (ds ++ rest) = some (ds, rest) := by
  induction ds with
  | nil => exact absurd rfl hne
  | cons c ds ih =>
    rw [List.forall_mem_cons] at hds
    -- the reader looks one character ahead, so the last digit ends the run by what follows it
    cases ds with
    | nil =>
      cases rest with
      | nil => simp [digitRun, hds.1]
      | cons d rest =>
        have hstop := hrest d rfl
        rw [Bool.or_eq_false_iff, decide_eq_false_iff_not] at hstop
        simp [digitRun, hds.1, hstop.1, hstop.2]
    | cons d ds =>
      have hd : Number.isDigitOf base d = true := hds.2 d List.mem_cons_self
      have hunderscore : d ≠ '_' := by
        rintro rfl
        cases hd
      have hmore := ih (List.cons_ne_nil d ds) hds.2
      rw [List.cons_append] at hmore
      rw [List.cons_append, List.cons_append, digitRun]
      · rw [if_pos hds.1, if_pos hd, hmore]
        rfl
      · exact hunderscore

variable {rest : List Char}

theorem fractionOf_of_ends (h : Ends rest) : fractionOf rest = some (none, rest) := by
  rcases h.cases with rfl | ⟨more, rfl | rfl | rfl | rfl | rfl⟩ <;> rfl

theorem exponentOf_of_ends (h : Ends rest) : exponentOf rest = some (none, rest) := by
  rcases h.cases with rfl | ⟨more, rfl | rfl | rfl | rfl | rfl⟩ <;> rfl

theorem endsNumber_of_ends (h : Ends rest) : endsNumber rest = true := by
  rcases h.cases with rfl | ⟨more, rfl | rfl | rfl | rfl | rfl⟩ <;> rfl

theorem decimalInteger?_decimal {n : Nat} (h : (Number.decimal n).length ≤ Number.digitLimit) :
    decimalInteger? (Number.decimal n) = some (.int n) := by
  by_cases hzero : n = 0
  · rw [hzero, Number.decimal_zero]
    rfl
  · obtain ⟨c, cs, hdigits, hc⟩ := Number.exists_decimal_eq_cons hzero
    rw [decimalInteger?, if_neg (by omega), Number.ofDigits_decimal]
    rw [hdigits]
    simp [hc]

theorem isDigit_head_decimal {n : Nat} {c : Char} {cs : List Char}
    (h : Number.decimal n = c :: cs) : Number.isDigit c = true :=
  @Number.isDigit_of_mem_decimal n c (h ▸ List.mem_cons_self)

theorem decimalNumber_decimal {n : Nat} (h : (Number.decimal n).length ≤ Number.digitLimit)
    (hrest : Ends rest) : decimalNumber (Number.decimal n ++ rest) = some (.int n, rest) := by
  have hrun : digitRun 10 (Number.decimal n ++ rest) = some (Number.decimal n, rest) :=
    digitRun_append (Number.decimal_ne_nil n) (fun _ => Number.isDigit_of_mem_decimal)
      (hrest.stops rfl)
  have hinteger := decimalInteger?_decimal h
  obtain ⟨c, cs, hdigits⟩ := List.exists_cons_of_ne_nil (Number.decimal_ne_nil n)
  have hpoint : c ≠ '.' := by
    rintro rfl
    cases isDigit_head_decimal hdigits
  rw [hdigits, List.cons_append] at hrun ⊢
  rw [hdigits] at hinteger
  rw [decimalNumber]
  · simp only [hrun, fractionOf_of_ends hrest, exponentOf_of_ends hrest, Option.bind_eq_bind,
      Option.bind_some]
    rcases hrest.cases with rfl | ⟨more, rfl | rfl | rfl | rfl | rfl⟩ <;> simp [hinteger]
  · exact fun _ hdot => hpoint (List.cons.inj hdot).1

/-- A number that does not go on behind a zero is a decimal one. -/
theorem numberToken_of_decimalNumber {v : Value} {cs : List Char}
    (hbase : ∀ c body, cs = '0' :: c :: body → c ∈ closers)
    (h : decimalNumber cs = some (v, rest)) (hrest : Ends rest) :
    numberToken cs = some (v, rest) := by
  by_cases hzero : ∃ c body, cs = '0' :: c :: body
  · obtain ⟨c, body, rfl⟩ := hzero
    have hc := hbase c body rfl
    have hletters : ∀ c ∈ closers, ¬(c = 'x' ∨ c = 'X') ∧ ¬(c = 'o' ∨ c = 'O') ∧
        ¬(c = 'b' ∨ c = 'B') := by simp [closers]
    obtain ⟨hhex, hoctal, hbinary⟩ := hletters c hc
    simp only [numberToken, if_neg hhex, if_neg hoctal, if_neg hbinary, h, Option.bind_eq_bind,
      Option.bind_some, endsNumber_of_ends hrest, if_true]
  · rw [numberToken]
    · simp only [h, Option.bind_eq_bind, Option.bind_some, endsNumber_of_ends hrest, if_true]
    · exact fun c body hcs => hzero ⟨c, body, hcs⟩

theorem numberToken_decimal {n : Nat} (h : (Number.decimal n).length ≤ Number.digitLimit)
    (hrest : Ends rest) : numberToken (Number.decimal n ++ rest) = some (.int n, rest) := by
  refine numberToken_of_decimalNumber (fun c body hzero => ?_) (decimalNumber_decimal h hrest) hrest
  by_cases hn : n = 0
  · rw [hn, Number.decimal_zero, List.singleton_append] at hzero
    exact hrest c (by rw [(List.cons.inj hzero).2]; rfl)
  · obtain ⟨d, ds, hdigits, hd⟩ := Number.exists_decimal_eq_cons hn
    rw [hdigits, List.cons_append] at hzero
    exact absurd (List.cons.inj hzero).1 hd

/-! ### Single tokens -/

variable {depth depth' depth'' : Nat}

section Spelling

variable [CharacterNames]

theorem plainToken_digit {c : Char} {cs : List Char} (h : Number.isDigit c = true) :
    plainToken (c :: cs) = constantToken (c :: cs) := by
  have hpoint : c ≠ '.' := by
    rintro rfl
    cases h
  rw [plainToken, if_pos h]
  · exact fun _ hdot => absurd hdot hpoint
  · exact fun _ _ hdot => absurd hdot hpoint

theorem plainToken_decimal {n : Nat} (h : (Number.decimal n).length ≤ Number.digitLimit)
    (hrest : Ends rest) :
    plainToken (Number.decimal n ++ rest) = some (.constant (.int n), rest) := by
  have hnumber := numberToken_decimal h hrest
  obtain ⟨c, cs, hdigits⟩ := List.exists_cons_of_ne_nil (Number.decimal_ne_nil n)
  rw [hdigits, List.cons_append] at hnumber ⊢
  rw [plainToken_digit (isDigit_head_decimal hdigits), constantToken, hnumber]
  rfl

theorem plainToken_quote {quote : Char} (hquote : isQuote quote = true) (cs : List Char) :
    plainToken (quote :: cs) = textToken ⟨false, false, false⟩ (quote :: cs) := by
  rcases Text.eq_of_isQuote hquote with rfl | rfl <;> rfl

theorem plainToken_quotedChars (cs : List Char) (hrest : Ends rest) :
    plainToken (Text.quotedChars cs ++ rest) = some (.text cs, rest) := by
  have htext := textToken_quotedChars cs (hrest.stops rfl)
  rw [Text.quotedChars, List.cons_append] at htext ⊢
  rw [plainToken_quote (Text.isQuote_quoteFor _ _), htext]

/-- The words that stand for values. -/
def valueWords : List String := ["None", "True", "False"]

theorem plainToken_word {word : String} (h : word ∈ valueWords) (hrest : Ends rest) :
    plainToken (word.toList ++ rest) = some (.word word.toList, rest) := by
  simp only [valueWords, List.mem_cons, List.not_mem_nil, or_false] at h
  rcases h with rfl | rfl | rfl <;>
    rcases hrest.cases with rfl | ⟨more, rfl | rfl | rfl | rfl | rfl⟩ <;> rfl

/-- A minus sign before a digit begins no longer operator. -/
theorem plainToken_minus {c : Char} {cs : List Char} (h : Number.isDigit c = true) :
    plainToken ('-' :: c :: cs) = some (.mark '-', c :: cs) := by
  have hequals : c ≠ '=' := by
    rintro rfl
    cases h
  have hgreater : c ≠ '>' := by
    rintro rfl
    cases h
  have hnone : (operators.find? fun o => o.toList.isPrefixOf ('-' :: c :: cs)) = none := by
    simp [operators, hequals.symm, hgreater.symm]
  have hmark : plainToken ('-' :: c :: cs) = markToken ('-' :: c :: cs) := rfl
  rw [hmark, markToken, hnone]
  rfl

theorem plainToken_comma (rest : List Char) : plainToken (',' :: rest) = some (.mark ',', rest) :=
  rfl

theorem plainToken_colon (rest : List Char) :
    plainToken (':' :: ' ' :: rest) = some (.mark ':', ' ' :: rest) := rfl

/-! ### Pieces of an expression -/

/-- With `depth` brackets open and `rest` behind it, the piece `cs` of an expression is cut into the
    tokens `ts` and leaves `depth'` brackets open. Each step takes a character at least, so as many
    steps as characters are enough. -/
def Spells (depth : Nat) (cs : List Char) (depth' : Nat) (ts : List Token) (rest : List Char) :
    Prop :=
  ∀ n, cs.length ≤ n → ∃ m, n ≤ m + cs.length ∧
    tokensFrom n depth (cs ++ rest) = (tokensFrom m depth' rest).map (ts ++ ·)

theorem Spells.nil : Spells depth [] depth [] rest := by
  intro n _
  exact ⟨n, by simp, by simp⟩

theorem Spells.append {cs ds : List Char} {ts us : List Token}
    (hcs : Spells depth cs depth' ts (ds ++ rest)) (hds : Spells depth' ds depth'' us rest) :
    Spells depth (cs ++ ds) depth'' (ts ++ us) rest := by
  intro n hn
  rw [List.length_append] at hn
  obtain ⟨m, hm, hfirst⟩ := hcs n (by omega)
  obtain ⟨k, hk, hsecond⟩ := hds m (by omega)
  refine ⟨k, by rw [List.length_append]; omega, ?_⟩
  rw [List.append_assoc, hfirst, hsecond, Option.map_map]
  congr 1
  funext us'
  exact (List.append_assoc ts us us').symm

/-- One character that is a token of its own, or none. -/
theorem spells_of_step {c : Char} {ts : List Token}
    (h : ∀ n, tokensFrom (n + 1) depth (c :: rest) = (tokensFrom n depth' rest).map (ts ++ ·)) :
    Spells depth [c] depth' ts rest := by
  intro n hn
  obtain ⟨m, rfl⟩ := Nat.exists_eq_add_of_le hn
  exact ⟨m, by simp [Nat.add_comm], by rw [List.length_singleton, Nat.add_comm]; exact h m⟩

theorem spells_open {c : Char} (hc : c ∈ leftBrackets) (hdepth : depth < depthLimit) :
    Spells depth [c] (depth + 1) [.mark c] rest := by
  refine spells_of_step fun n => ?_
  rcases mem_leftBrackets hc with rfl | rfl | rfl <;> simp [tokensFrom, hdepth]

theorem spells_close {c : Char} (hc : c ∈ rightBrackets) :
    Spells (depth + 1) [c] depth [.mark c] rest := by
  refine spells_of_step fun n => ?_
  rcases mem_rightBrackets hc with rfl | rfl | rfl <;> simp [tokensFrom]

theorem spells_blank : Spells depth [' '] depth [] rest := by
  refine spells_of_step fun n => ?_
  simp [tokensFrom]

/-- The characters that are no part of a token, or a bracket. -/
def isSpecial (c : Char) : Bool :=
  [' ', '\t', '\x0c', '#', '\n', '\\', '(', '[', '\x7b', ')', ']', '\x7d'].contains c

theorem spells_plain {c : Char} {cs : List Char} {t : Token} (hc : isSpecial c = false)
    (h : plainToken (c :: (cs ++ rest)) = some (t, rest)) :
    Spells depth (c :: cs) depth [t] rest := by
  intro n hn
  obtain ⟨m, rfl⟩ : ∃ m, n = m + 1 := ⟨n - 1, by rw [List.length_cons] at hn; omega⟩
  refine ⟨m, by rw [List.length_cons]; omega, ?_⟩
  simp only [isSpecial, List.contains_cons, List.contains_nil, Bool.or_false, Bool.or_eq_false_iff,
    beq_eq_false_iff_ne, ne_eq] at hc
  simp [tokensFrom, hc, h]

/-- Wherever it can end, the piece `cs` is cut into the tokens `ts`. -/
def Piece (depth : Nat) (cs : List Char) (ts : List Token) : Prop :=
  ∀ rest, Ends rest → Spells depth cs depth ts rest

theorem piece_nil : Piece depth [] [] := fun _ _ => .nil

theorem Piece.bracketed {left right : Char} {cs : List Char} {ts : List Token}
    (h : Piece (depth + 1) cs ts) (hleft : left ∈ leftBrackets) (hright : right ∈ rightBrackets)
    (hdepth : depth < depthLimit) :
    Piece depth (left :: (cs ++ [right])) (.mark left :: (ts ++ [.mark right])) := by
  intro rest _
  have hends : Ends (right :: rest) := ends_cons (mem_closers_of_mem_rightBrackets hright) rest
  exact (spells_open hleft hdepth).append ((h _ hends).append (spells_close hright))

theorem spells_comma : Spells depth [',', ' '] depth [.mark ','] rest := by
  have hmark : Spells depth [','] depth [.mark ','] ([' '] ++ rest) :=
    spells_plain rfl (plainToken_comma _)
  exact hmark.append spells_blank

theorem spells_colon : Spells depth [':', ' '] depth [.mark ':'] rest := by
  have hmark : Spells depth [':'] depth [.mark ':'] ([' '] ++ rest) :=
    spells_plain rfl (plainToken_colon _)
  exact hmark.append spells_blank

/-- A comma may follow the only item. -/
theorem Piece.lastComma {cs : List Char} {ts : List Token} (h : Piece depth cs ts)
    (items : List Value) :
    Piece depth (cs ++ Value.lastComma items) (ts ++ (Value.lastComma items).map .mark) := by
  intro rest hrest
  rw [Value.lastComma]
  split
  · exact (h _ (ends_cons (by decide) _)).append (spells_plain rfl (plainToken_comma _))
  · exact (h _ hrest).append .nil

end Spelling

/-- Tokens with commas between them. -/
def separated (pieces : List (List Token)) : List Token := List.intercalate [.mark ','] pieces

/-- The tokens of what follows a first item. -/
def tailTokens (pieces : List (List Token)) : List Token := pieces.flatMap (.mark ',' :: ·)

theorem tailTokens_cons (ts : List Token) (pieces : List (List Token)) :
    tailTokens (ts :: pieces) = .mark ',' :: (ts ++ tailTokens pieces) := rfl

theorem separated_cons (ts : List Token) (pieces : List (List Token)) :
    separated (ts :: pieces) = ts ++ tailTokens pieces :=
  Value.intercalate_cons _ _ _

section Pieces

variable {α : Type} {f : α → List Char} {g : α → List Token} {xs : List α}

theorem ends_tailChars (hrest : Ends rest) (pieces : List (List Char)) :
    Ends (Value.tailChars pieces ++ rest) := by
  cases pieces with
  | nil => exact hrest
  | cons piece pieces => exact ends_cons (by decide) _

variable [CharacterNames]

theorem piece_tail (h : ∀ x ∈ xs, Piece depth (f x) (g x)) :
    Piece depth (Value.tailChars (xs.map f)) (tailTokens (xs.map g)) := by
  intro rest hrest
  induction xs with
  | nil => exact .nil
  | cons x xs ih =>
    rw [List.forall_mem_cons] at h
    exact (spells_comma.append (h.1 _ (ends_tailChars hrest _))).append (ih h.2)

/-- Pieces with commas between them are cut one by one. -/
theorem piece_commaJoined (h : ∀ x ∈ xs, Piece depth (f x) (g x)) :
    Piece depth (Value.commaJoined (xs.map f)) (separated (xs.map g)) := by
  cases xs with
  | nil => exact piece_nil
  | cons x xs =>
    rw [List.forall_mem_cons] at h
    intro rest hrest
    rw [List.map_cons, List.map_cons, separated_cons, Value.commaJoined_cons]
    exact (h.1 _ (ends_tailChars hrest _)).append (piece_tail h.2 rest hrest)

end Pieces

/-! ### The tokens of a value -/

mutual

/-- The tokens of plain data. -/
def tokensOf : Value → List Token
  | .null => [.word "None".toList]
  | .bool true => [.word "True".toList]
  | .bool false => [.word "False".toList]
  | .int n =>
    if n < 0 then [.mark '-', .constant (.int n.natAbs)] else [.constant (.int n.natAbs)]
  | .str s => [.text s.toList]
  | .list items => .mark '[' :: (separated (tokensAll items) ++ [.mark ']'])
  | .tuple items =>
    .mark '(' :: ((separated (tokensAll items) ++ (Value.lastComma items).map .mark) ++ [.mark ')'])
  | .dict entries => .mark '\x7b' :: (separated (entryTokens entries) ++ [.mark '\x7d'])
  | _ => []

/-- The tokens of each item. -/
def tokensAll : List Value → List (List Token)
  | [] => []
  | v :: vs => tokensOf v :: tokensAll vs

/-- The tokens of each entry. -/
def entryTokens : List (Value × Value) → List (List Token)
  | [] => []
  | (k, v) :: es => (tokensOf k ++ .mark ':' :: tokensOf v) :: entryTokens es

end

theorem tokensAll_eq (items : List Value) : tokensAll items = items.map tokensOf := by
  induction items with
  | nil => rfl
  | cons v vs ih => exact congrArg (tokensOf v :: ·) ih

/-- The tokens of an entry under a text key. -/
def tokensOfEntry (e : String × Value) : List Token :=
  .text e.1.toList :: .mark ':' :: tokensOf e.2

theorem entryTokens_eq (entries : List (String × Value)) :
    entryTokens (Value.textEntries entries) = entries.map tokensOfEntry := by
  induction entries with
  | nil => rfl
  | cons e es ih => exact congrArg (tokensOfEntry e :: ·) ih

theorem tokensOf_list (items : List Value) :
    tokensOf (.list items) = .mark '[' :: (separated (items.map tokensOf) ++ [.mark ']']) := by
  rw [← tokensAll_eq]
  rfl

theorem tokensOf_tuple (items : List Value) :
    tokensOf (.tuple items) =
      .mark '(' :: ((separated (items.map tokensOf) ++ (Value.lastComma items).map .mark) ++
        [.mark ')']) := by
  rw [← tokensAll_eq]
  rfl

theorem tokensOf_object (entries : List (String × Value)) :
    tokensOf (Value.object entries) =
      .mark '\x7b' :: (separated (entries.map tokensOfEntry) ++ [.mark '\x7d']) := by
  rw [← entryTokens_eq]
  rfl

theorem isSpecial_digitChar : ∀ d < 10, isSpecial (Number.digitChar d) = false := by decide

section Values

variable [CharacterNames]

theorem piece_word {word : String} (h : word ∈ valueWords) :
    Piece depth word.toList [.word word.toList] := by
  intro rest hrest
  have htoken := plainToken_word h hrest
  simp only [valueWords, List.mem_cons, List.not_mem_nil, or_false] at h
  rcases h with rfl | rfl | rfl <;> exact spells_plain rfl htoken

theorem piece_text (cs : List Char) : Piece depth (Text.quotedChars cs) [.text cs] := by
  intro rest hrest
  have htoken := plainToken_quotedChars cs hrest
  rw [Text.quotedChars] at htoken ⊢
  refine spells_plain ?_ htoken
  rw [Text.quoteFor]
  split <;> rfl

theorem piece_decimal {n : Nat} (h : (Number.decimal n).length ≤ Number.digitLimit) :
    Piece depth (Number.decimal n) [.constant (.int n)] := by
  intro rest hrest
  have htoken := plainToken_decimal h hrest
  obtain ⟨c, cs, hdigits⟩ := List.exists_cons_of_ne_nil (Number.decimal_ne_nil n)
  obtain ⟨d, hd, rfl⟩ := @Number.exists_of_mem_decimal n c (hdigits ▸ List.mem_cons_self)
  rw [hdigits] at htoken ⊢
  exact spells_plain (isSpecial_digitChar d hd) htoken

theorem spells_minus (n : Nat) :
    Spells depth ['-'] depth [.mark '-'] (Number.decimal n ++ rest) := by
  obtain ⟨c, cs, hdigits⟩ := List.exists_cons_of_ne_nil (Number.decimal_ne_nil n)
  rw [hdigits]
  exact spells_plain rfl (plainToken_minus (isDigit_head_decimal hdigits))

theorem piece_int {n : Int} (h : Number.isTooLong n = false) :
    Piece depth (Value.displayChars (.int n)) (tokensOf (.int n)) := by
  have hdigits : Piece depth _ _ := piece_decimal (Number.length_decimal_le_digitLimit h)
  intro rest hrest
  rw [Value.displayChars_int, tokensOf]
  split
  · exact (spells_minus _).append (hdigits rest hrest)
  · exact hdigits rest hrest

theorem piece_entry {e : String × Value}
    (h : Piece depth (Value.displayChars e.2) (tokensOf e.2)) :
    Piece depth (Value.displayEntry e) (tokensOfEntry e) := by
  intro rest hrest
  have hkey : Piece depth _ _ := piece_text e.1.toList
  exact (hkey _ (ends_cons (by decide) _)).append (spells_colon.append (h rest hrest))

/-- The written form of plain data is cut into the tokens of the value, if brackets may still be
    nested as deep. -/
theorem piece_data {d : Nat} {v : Value} (h : Value.Data d v) (hdepth : depth + d ≤ depthLimit) :
    Piece depth (Value.displayChars v) (tokensOf v) := by
  induction h generalizing depth with
  | null => exact piece_word (by decide)
  | bool b => cases b <;> exact piece_word (by decide)
  | int h => exact piece_int h
  | str s => exact piece_text s.toList
  | @list d items h ih =>
    rw [Value.displayChars_list, tokensOf_list]
    refine (piece_commaJoined ?_).bracketed (by decide) (by decide) (by omega)
    exact fun v hv => ih v hv (by omega)
  | @tuple d items h ih =>
    rw [Value.displayChars_tuple, tokensOf_tuple]
    refine ((piece_commaJoined ?_).lastComma items).bracketed (by decide) (by decide) (by omega)
    exact fun v hv => ih v hv (by omega)
  | @object d entries hkeys h ih =>
    rw [Value.displayChars_object, tokensOf_object]
    refine (piece_commaJoined ?_).bracketed (by decide) (by decide) (by omega)
    exact fun e he => piece_entry (ih e he (by omega))

end Values

/-! ### Whole texts -/

theorem toLineFeeds_eq_self {cs : List Char} (h : '\r' ∉ cs) : Text.toLineFeeds cs = cs := by
  rw [Text.toLineFeeds, Text.unifyBreaks_of_not_mem h]
  conv_rhs => rw [← List.map_id cs]
  refine List.map_congr_left fun c hc => if_neg ?_
  rintro rfl
  exact h hc

/-- A text that begins with a value has its first line at once. -/
theorem lineStart_cons {c : Char} (hc : c ∈ Value.beginnings) (cs : List Char) :
    lineStart false false (c :: cs) = some (c :: cs) := by
  have hblanks : ∀ c ∈ Value.beginnings, c ≠ '\n' ∧ c ≠ ' ' ∧ c ≠ '\t' ∧ c ≠ '\x0c' ∧ c ≠ '#' ∧
      c ≠ '\\' := by simp [Value.beginnings]
  obtain ⟨hline, hblank, htab, hform, hcomment, hslash⟩ := hblanks c hc
  simp [lineStart, hline, hblank, htab, hform, hcomment, hslash]

/-- There are no more tokens than steps. -/
theorem length_lt_of_tokensFrom [CharacterNames] {n depth : Nat} {cs : List Char} {ts : List Token}
    (h : tokensFrom n depth cs = some ts) : ts.length < n := by
  fun_induction tokensFrom n depth cs generalizing ts <;> grind [Option.map_eq_some_iff]

/-- The tokens of a written form are those of the value, and no more than it has characters. -/
theorem tokens_displayChars [CharacterNames] {v : Value} (h : Value.Data depthLimit v) :
    tokens (Value.displayChars v) = some (tokensOf v) ∧
      (tokensOf v).length ≤ (Value.displayChars v).length := by
  obtain ⟨c, cs, hform, hc⟩ := h.begins
  have hnul : (Value.displayChars v).contains '\x00' = false := by
    rw [List.contains_eq_mem, decide_eq_false_iff_not]
    exact fun hmem => absurd (h.le_toNat _ hmem) (by decide)
  have hfeeds : Text.toLineFeeds (Value.displayChars v) = Value.displayChars v :=
    toLineFeeds_eq_self fun hmem => absurd (h.le_toNat _ hmem) (by decide)
  have hblank : Value.beginnings.any (fun c => c = ' ' || c = '\t') = false := rfl
  have hdrop : ((Value.displayChars v).dropWhile fun c => c = ' ' || c = '\t') =
      Value.displayChars v := by
    rw [hform]
    exact List.dropWhile_cons_of_neg (List.any_eq_false.mp hblank c hc)
  have hstart : lineStart false false (Value.displayChars v) = some (Value.displayChars v) := by
    rw [hform]
    exact lineStart_cons hc cs
  obtain ⟨m, hm, hcut⟩ := piece_data h (Nat.le_of_eq (Nat.zero_add _)) [] ends_nil
    ((Value.displayChars v).length + 1) (Nat.le_succ _)
  -- there is one step more than characters, which is left for the end of the text
  obtain ⟨k, rfl⟩ : ∃ k, m = k + 1 := ⟨m - 1, by omega⟩
  have htokens : tokensFrom ((Value.displayChars v).length + 1) 0 (Value.displayChars v) =
      some (tokensOf v) := by
    simpa [tokensFrom] using hcut
  refine ⟨?_, Nat.lt_succ_iff.mp (length_lt_of_tokensFrom htokens)⟩
  simp only [tokens, hnul, hfeeds, hdrop, hstart, htokens, Bool.false_eq_true, if_false]

end DocGraph.Literal
