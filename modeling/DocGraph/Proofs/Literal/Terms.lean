import DocGraph.Literal.Evaluation
import DocGraph.Proofs.Literal.Tokens

/-! The terms of written data.

    The tokens of plain data are read as one expression, its term (`termOf`), wherever they stand
    (`readsAs_data`), and the value of the term is the data (`value_termOf`). The reader goes down
    through the levels of operators and finds none: what follows a value cannot belong to it
    (`TermEnds`), and what it begins with is no operator (`Starts`). -/

namespace DocGraph.Literal

/-! ### Before and behind a value -/

/-- Nothing follows, or a mark that cannot belong to a value. -/
def TermEnds (rest : List Token) : Prop := rest = [] ∨ ∃ c ∈ closers, ∃ more, rest = .mark c :: more

/-- The marks that a value can begin with. -/
def openers : List Char := ['-', '(', '[', '\x7b']

/-- A value begins here. -/
inductive Starts : List Token → Prop
  | constant (v : Value) (more : List Token) : Starts (.constant v :: more)
  | text (cs : List Char) (more : List Token) : Starts (.text cs :: more)
  | word {w : String} (h : w ∈ valueWords) (more : List Token) : Starts (.word w.toList :: more)
  | mark {c : Char} (h : c ∈ openers) (more : List Token) : Starts (.mark c :: more)

variable {n level : Nat} {t : Term} {ts rest : List Token}

theorem termEnds_cons {c : Char} (h : c ∈ closers) (more : List Token) :
    TermEnds (.mark c :: more) := .inr ⟨c, h, more, rfl⟩

theorem TermEnds.afterWord? (h : TermEnds rest) (word : String) : afterWord? word rest = none := by
  rcases h with rfl | ⟨c, -, more, rfl⟩ <;> rfl

theorem TermEnds.startsClause (h : TermEnds rest) : startsClause rest = false := by
  rcases h with rfl | ⟨c, -, more, rfl⟩ <;> rfl

theorem TermEnds.binary? (h : TermEnds rest) : binary? rest = none := by
  rcases h with rfl | ⟨c, hc, more, rfl⟩
  · rfl
  · rcases mem_closers hc with rfl | rfl | rfl | rfl | rfl <;> rfl

theorem termEnds_tailTokens (hrest : TermEnds rest) (pieces : List (List Token)) :
    TermEnds (tailTokens pieces ++ rest) := by
  cases pieces with
  | nil => exact hrest
  | cons ts pieces => exact termEnds_cons (by decide) _

theorem Starts.append (h : Starts ts) (more : List Token) : Starts (ts ++ more) := by
  cases h with
  | constant v _ => exact .constant v _
  | text cs _ => exact .text cs _
  | word hw _ => exact .word hw _
  | mark hc _ => exact .mark hc _

theorem Starts.ne_mark (h : Starts ts) {c : Char} (hc : c ∉ openers) (more : List Token) :
    ts ≠ .mark c :: more := by
  rintro rfl
  cases h with
  | mark h => exact hc h

theorem Starts.afterWord? (h : Starts ts) {word : String} (hword : word ∉ valueWords) :
    afterWord? word ts = none := by
  cases h with
  | word hw =>
    rw [Literal.afterWord?, if_neg]
    intro heq
    rw [String.toList_inj] at heq
    exact hword (heq ▸ hw)
  | _ => rfl

theorem Starts.afterMark? (h : Starts ts) {c : Char} (hc : c ∉ openers) :
    afterMark? c ts = none := by
  cases h with
  | mark hmark =>
    rw [Literal.afterMark?, if_neg]
    rintro rfl
    exact hc hmark
  | _ => rfl

theorem Starts.afterOperator? (h : Starts ts) (operator : String) :
    afterOperator? operator ts = none := by
  cases h <;> rfl

theorem Starts.afterNaming? (h : Starts ts) : afterNaming? ts = none := by
  cases h with
  | word hw =>
    have hkeyword : ∀ w ∈ valueWords, isKeyword w.toList = true := by decide
    rw [Literal.afterNaming?, afterName?, if_pos (hkeyword _ hw)]
    rfl
  | _ => rfl

theorem Starts.closes (h : Starts ts) : closes ts = false := by
  cases h with
  | mark hmark =>
    simp only [openers, List.mem_cons, List.not_mem_nil, or_false] at hmark
    rcases hmark with rfl | rfl | rfl | rfl <;> rfl
  | _ => rfl

/-! ### Down the levels of operators -/

section Reading

variable [CharacterNames]

theorem TermEnds.climbOn (h : TermEnds rest) (n level : Nat) (t : Term) :
    climbOn (n + 1) level t rest = some (t, rest) := by
  rw [Literal.climbOn, h.binary?]

theorem TermEnds.trailers (h : TermEnds rest) (n : Nat) (t : Term) :
    trailers (n + 1) t rest = some (t, rest) := by
  rcases h with rfl | ⟨c, hc, more, rfl⟩
  · rfl
  · rcases mem_closers hc with rfl | rfl | rfl | rfl | rfl <;> rfl

theorem primary_of_atom (h : atom (n + 1) ts = some (t, rest)) (hrest : TermEnds rest) :
    primary (n + 2) ts = some (t, rest) := by
  rw [primary, h]
  exact hrest.trailers n t

theorem climb_of_primary (hstart : Starts ts) (hsign : ∀ more, ts ≠ .mark '-' :: more)
    (h : primary (n + 1) ts = some (t, rest)) (hrest : TermEnds rest) :
    climb (n + 2) level ts = some (t, rest) := by
  rw [climb]
  · simp only [hstart.afterWord? (show "not" ∉ valueWords by decide),
      hstart.afterWord? (show "await" ∉ valueWords by decide), h, Option.bind_eq_bind,
      Option.bind_some]
    exact hrest.climbOn n level t
  · exact hstart.ne_mark (by decide)
  · exact hsign
  · exact hstart.ne_mark (by decide)

theorem climb_minus (h : climb (n + 1) signLevel ts = some (t, rest)) (hrest : TermEnds rest) :
    climb (n + 2) level (.mark '-' :: ts) = some (.minus t, rest) := by
  rw [climb, h]
  exact hrest.climbOn n level (.minus t)

theorem expression_of_climb (hstart : Starts ts) (h : climb n 1 ts = some (t, rest))
    (hrest : TermEnds rest) : expression (n + 1) ts = some (t, rest) := by
  rw [expression, hstart.afterWord? (by decide), h]
  simp only [Option.bind_eq_bind, Option.bind_some, hrest.afterWord?]

/-- An atom with nothing around it is a whole expression. -/
theorem expression_of_atom (hstart : Starts ts) (hsign : ∀ more, ts ≠ .mark '-' :: more)
    (h : atom (n + 1) ts = some (t, rest)) (hrest : TermEnds rest) :
    expression (n + 4) ts = some (t, rest) :=
  expression_of_climb hstart (climb_of_primary hstart hsign (primary_of_atom h hrest) hrest) hrest

theorem item_eq_expression (hstart : Starts ts) (n : Nat) : item (n + 2) ts = expression n ts := by
  rw [item, hstart.afterMark? (by decide)]
  simp only [namedTerm, hstart.afterNaming?]

/-! ### Atoms -/

theorem atom_text (cs : List Char) (hrest : TermEnds rest) :
    atom (n + 2) (.text cs :: rest) = some (.constant (.str (String.ofList cs)), rest) := by
  have htake : (Token.text cs :: rest).takeWhile isQuoted = [.text cs] := by
    rcases hrest with rfl | ⟨c, -, more, rfl⟩ <;> rfl
  have hdrop : (Token.text cs :: rest).dropWhile isQuoted = rest := by
    rcases hrest with rfl | ⟨c, -, more, rfl⟩ <;> rfl
  have hquoted : atom (n + 2) (.text cs :: rest) =
      quotedTerm (n + 1) ((Token.text cs :: rest).takeWhile isQuoted)
        ((Token.text cs :: rest).dropWhile isQuoted) := rfl
  rw [hquoted, htake, hdrop, quotedTerm]
  simp [joinTexts?]

theorem atom_list (hstart : Starts ts) {items : List Term} {after : List Token}
    (hitem : item n ts = some (t, after)) (hafter : TermEnds after)
    (hitems : itemsOn n t after = some (items, .mark ']' :: rest)) :
    atom (n + 1) (.mark '[' :: ts) = some (.list items, rest) := by
  rw [atom]
  · simp [hitem, hafter.startsClause, hitems, afterMark?]
  · exact hstart.ne_mark (by decide)

/-- What is in round brackets is a tuple if a comma follows its first item. -/
theorem atom_tuple (hstart : Starts ts) {items : List Term} {more : List Token}
    (hitem : item n ts = some (t, .mark ',' :: more))
    (hitems : itemsOn n t (.mark ',' :: more) = some (items, .mark ')' :: rest)) :
    atom (n + 1) (.mark '(' :: ts) = some (.tuple items, rest) := by
  have hafter : TermEnds (.mark ',' :: more) := termEnds_cons (by decide) more
  rw [atom]
  · simp [hstart.afterWord? (show "yield" ∉ valueWords by decide), hitem, hafter.startsClause,
      hitems, afterMark?]
  · exact hstart.ne_mark (by decide)

theorem atom_dict (hstart : Starts ts) {v : Term} {entries : List (Term × Term)}
    {more after : List Token} (hkey : item n ts = some (t, .mark ':' :: more))
    (hvalue : expression n more = some (v, after)) (hafter : TermEnds after)
    (hentries : entriesOn n (t, v) after = some (entries, .mark '\x7d' :: rest)) :
    atom (n + 1) (.mark '\x7b' :: ts) = some (.dict entries, rest) := by
  have hstar : afterMark? '*' ts = none := hstart.afterMark? (by decide)
  have hcolon : afterMark? ':' (.mark ':' :: more) = some more := rfl
  have hclose : afterMark? '\x7d' (.mark '\x7d' :: rest) = some rest := rfl
  rw [atom]
  · simp [hstart.afterOperator?, hkey, hstart.afterNaming?, hstar, hcolon, hvalue,
      hafter.startsClause, hentries, hclose]
  · exact hstart.ne_mark (by decide)

/-! ### Sequences -/

/-- Wherever the value can end, its tokens are read as the term. A token costs at most eight steps
    of the reader, six of them for the way down from a bracket to what stands in it. -/
structure ReadsAs (ts : List Token) (t : Term) : Prop where
  starts : Starts ts
  reads : ∀ n rest, 8 * ts.length ≤ n → TermEnds rest → expression n (ts ++ rest) = some (t, rest)

theorem ReadsAs.item (h : ReadsAs ts t) (hn : 8 * ts.length + 2 ≤ n) (hrest : TermEnds rest) :
    item n (ts ++ rest) = some (t, rest) := by
  obtain ⟨m, rfl⟩ : ∃ m, n = m + 2 := ⟨n - 2, by omega⟩
  rw [item_eq_expression (h.starts.append rest), h.reads m rest (by omega) hrest]

theorem readsAs_of_atom {tok : Token} (hstart : Starts (tok :: ts)) (hsign : tok ≠ .mark '-')
    (h : ∀ n rest, 8 * (ts.length + 1) ≤ n + 4 → TermEnds rest →
      atom (n + 1) (tok :: (ts ++ rest)) = some (t, rest)) : ReadsAs (tok :: ts) t := by
  refine ⟨hstart, fun n rest hn hrest => ?_⟩
  rw [List.length_cons] at hn
  obtain ⟨m, rfl⟩ : ∃ m, n = m + 4 := ⟨n - 4, by omega⟩
  exact expression_of_atom (hstart.append rest) (fun _ heq => hsign (List.cons.inj heq).1)
    (h m rest hn hrest) hrest

theorem itemsOn_tailTokens {α : Type} {f : α → List Token} {g : α → Term} {xs : List α}
    {right : Char} (h : ∀ x ∈ xs, ReadsAs (f x) (g x)) (hright : right ∈ rightBrackets)
    (hn : 8 * (tailTokens (xs.map f)).length < n) (t : Term) (rest : List Token) :
    itemsOn n t (tailTokens (xs.map f) ++ .mark right :: rest) =
      some (t :: xs.map g, .mark right :: rest) := by
  have hends : TermEnds (.mark right :: rest) :=
    termEnds_cons (mem_closers_of_mem_rightBrackets hright) rest
  induction xs generalizing n t with
  | nil =>
    obtain ⟨m, rfl⟩ : ∃ m, n = m + 1 := ⟨n - 1, by omega⟩
    rcases mem_rightBrackets hright with rfl | rfl | rfl <;> rfl
  | cons x xs ih =>
    rw [List.forall_mem_cons] at h
    rw [List.map_cons, tailTokens_cons, List.length_cons, List.length_append] at hn
    -- the comma takes one step, and the item two more before its expression begins
    obtain ⟨m, rfl⟩ : ∃ m, n = m + 1 := ⟨n - 1, by omega⟩
    have hitem := h.1.item (n := m) (by omega) (termEnds_tailTokens hends (xs.map f))
    have hcloses := (h.1.starts.append (tailTokens (xs.map f) ++ .mark right :: rest)).closes
    rw [List.map_cons, tailTokens_cons, List.cons_append, List.append_assoc, itemsOn]
    simp [afterMark?, hcloses, hitem, ih h.2 (n := m) (by omega)]

end Reading

/-! ### The term of a value -/

mutual

/-- The term of plain data. -/
def termOf : Value → Term
  | .int n => if n < 0 then .minus (.constant (.int n.natAbs)) else .constant (.int n.natAbs)
  | .list items => .list (termsOf items)
  | .tuple items => .tuple (termsOf items)
  | .dict entries => .dict (entryTerms entries)
  | v => .constant v

/-- The term of each item. -/
def termsOf : List Value → List Term
  | [] => []
  | v :: vs => termOf v :: termsOf vs

/-- The terms of each entry. -/
def entryTerms : List (Value × Value) → List (Term × Term)
  | [] => []
  | (k, v) :: es => (termOf k, termOf v) :: entryTerms es

end

theorem termsOf_eq (items : List Value) : termsOf items = items.map termOf := by
  induction items with
  | nil => rfl
  | cons v vs ih => exact congrArg (termOf v :: ·) ih

/-- The terms of an entry under a text key. -/
def termsOfEntry (e : String × Value) : Term × Term := (.constant (.str e.1), termOf e.2)

theorem entryTerms_eq (entries : List (String × Value)) :
    entryTerms (Value.textEntries entries) = entries.map termsOfEntry := by
  induction entries with
  | nil => rfl
  | cons e es ih => exact congrArg (termsOfEntry e :: ·) ih

theorem termOf_list (items : List Value) : termOf (.list items) = .list (items.map termOf) := by
  rw [← termsOf_eq]
  rfl

theorem termOf_tuple (items : List Value) : termOf (.tuple items) = .tuple (items.map termOf) := by
  rw [← termsOf_eq]
  rfl

theorem termOf_object (entries : List (String × Value)) :
    termOf (Value.object entries) = .dict (entries.map termsOfEntry) := by
  rw [← entryTerms_eq]
  rfl

section Reading

variable [CharacterNames]

theorem readsAs_word {w : String} {v : Value} (hw : w ∈ valueWords)
    (hterm : wordTerm? w.toList = some (.constant v)) :
    ReadsAs [.word w.toList] (.constant v) := by
  refine readsAs_of_atom (.word hw _) nofun fun n rest _ hrest => ?_
  rw [List.nil_append, atom, hterm]
  rfl

theorem readsAs_text (s : String) : ReadsAs [.text s.toList] (.constant (.str s)) := by
  refine readsAs_of_atom (.text _ _) nofun fun n rest hn hrest => ?_
  obtain ⟨m, rfl⟩ : ∃ m, n = m + 1 := ⟨n - 1, by rw [List.length_nil] at hn; omega⟩
  rw [List.nil_append, atom_text _ hrest, String.ofList_toList]

theorem readsAs_constant (v : Value) : ReadsAs [.constant v] (.constant v) :=
  readsAs_of_atom (.constant _ _) nofun fun _ _ _ _ => rfl

theorem readsAs_minus (v : Value) : ReadsAs [.mark '-', .constant v] (.minus (.constant v)) := by
  refine ⟨.mark (by decide) _, fun n rest hn hrest => ?_⟩
  obtain ⟨m, rfl⟩ : ∃ m, n = m + 5 := ⟨n - 5, by simp at hn; omega⟩
  have hatom : atom (m + 1) (.constant v :: rest) = some (.constant v, rest) := rfl
  have hclimb : climb (m + 3) signLevel (.constant v :: rest) = some (.constant v, rest) :=
    climb_of_primary (.constant v rest) nofun (primary_of_atom hatom hrest) hrest
  exact expression_of_climb (.mark (by decide) _) (climb_minus hclimb hrest) hrest

theorem readsAs_int (k : Int) : ReadsAs (tokensOf (.int k)) (termOf (.int k)) := by
  rw [tokensOf, termOf]
  split
  · exact readsAs_minus _
  · exact readsAs_constant _

theorem readsAs_list {items : List Value} (h : ∀ v ∈ items, ReadsAs (tokensOf v) (termOf v)) :
    ReadsAs (tokensOf (.list items)) (termOf (.list items)) := by
  rw [tokensOf_list, termOf_list]
  refine readsAs_of_atom (.mark (by decide) _) (by simp) fun n rest hn hrest => ?_
  cases items with
  | nil => rfl
  | cons v vs =>
    rw [List.forall_mem_cons] at h
    rw [List.map_cons, separated_cons, List.length_append, List.length_append,
      List.length_singleton] at hn
    rw [List.map_cons, separated_cons, List.append_assoc, List.append_assoc, List.singleton_append]
    have hends : TermEnds (.mark ']' :: rest) := termEnds_cons (by decide) rest
    have htail := termEnds_tailTokens hends (vs.map tokensOf)
    exact atom_list (h.1.starts.append _) (h.1.item (by omega) htail) htail
      (itemsOn_tailTokens h.2 (by decide) (by omega) _ rest)

theorem readsAs_tuple {items : List Value} (h : ∀ v ∈ items, ReadsAs (tokensOf v) (termOf v)) :
    ReadsAs (tokensOf (.tuple items)) (termOf (.tuple items)) := by
  rw [tokensOf_tuple, termOf_tuple]
  refine readsAs_of_atom (.mark (by decide) _) (by simp) fun n rest hn hrest => ?_
  match items, h, hn with
  | [], _, _ => rfl
  | [v], h, hn =>
    have hv := h v List.mem_cons_self
    have hcomma : (Value.lastComma [v]).map Token.mark = [.mark ','] := rfl
    have hone : separated ([v].map tokensOf) = tokensOf v := List.intercalate_singleton
    rw [hcomma, hone, List.length_append, List.length_append, List.length_singleton] at hn
    rw [hcomma, hone, List.append_assoc, List.append_assoc]
    obtain ⟨m, rfl⟩ : ∃ m, n = m + 1 := ⟨n - 1, by omega⟩
    exact atom_tuple (hv.starts.append _) (hv.item (by omega) (termEnds_cons (by decide) _)) rfl
  | v :: w :: vs, h, hn =>
    rw [List.forall_mem_cons] at h
    have hcomma : (Value.lastComma (v :: w :: vs)).map Token.mark = [] := rfl
    rw [hcomma, List.append_nil, List.map_cons, separated_cons, List.length_append,
      List.length_append, List.length_singleton] at hn
    rw [hcomma, List.append_nil, List.map_cons, separated_cons, List.append_assoc,
      List.append_assoc, List.singleton_append]
    have hends : TermEnds (.mark ')' :: rest) := termEnds_cons (by decide) rest
    have htail := termEnds_tailTokens hends ((w :: vs).map tokensOf)
    exact atom_tuple (h.1.starts.append _) (h.1.item (by omega) htail)
      (itemsOn_tailTokens h.2 (by decide) (by omega) _ rest)

theorem entriesOn_tailTokens {entries : List (String × Value)}
    (h : ∀ e ∈ entries, ReadsAs (tokensOf e.2) (termOf e.2))
    (hn : 8 * (tailTokens (entries.map tokensOfEntry)).length < n) (e : Term × Term)
    (rest : List Token) :
    entriesOn n e (tailTokens (entries.map tokensOfEntry) ++ .mark '\x7d' :: rest) =
      some (e :: entries.map termsOfEntry, .mark '\x7d' :: rest) := by
  have hends : TermEnds (.mark '\x7d' :: rest) := termEnds_cons (by decide) rest
  induction entries generalizing n e with
  | nil =>
    obtain ⟨m, rfl⟩ : ∃ m, n = m + 1 := ⟨n - 1, by omega⟩
    rfl
  | cons f fs ih =>
    rw [List.forall_mem_cons] at h
    rw [List.map_cons, tailTokens_cons, List.length_cons, List.length_append, tokensOfEntry,
      List.length_cons, List.length_cons] at hn
    obtain ⟨m, rfl⟩ : ∃ m, n = m + 2 := ⟨n - 2, by omega⟩
    have htail := termEnds_tailTokens hends (fs.map tokensOfEntry)
    have hvalue := h.1.reads m _ (by omega) htail
    have hkey := (readsAs_text f.1).reads m (.mark ':' :: (tokensOf f.2 ++
      (tailTokens (fs.map tokensOfEntry) ++ .mark '\x7d' :: rest)))
      (by rw [List.length_singleton]; omega) (termEnds_cons (by decide) _)
    rw [List.singleton_append] at hkey
    rw [List.map_cons, tailTokens_cons, List.cons_append, List.append_assoc, tokensOfEntry,
      List.cons_append, List.cons_append, entriesOn]
    simp [afterMark?, closes, entryList, afterOperator?, hkey, hvalue, ih h.2 (n := m) (by omega),
      termsOfEntry]

theorem readsAs_object {entries : List (String × Value)}
    (h : ∀ e ∈ entries, ReadsAs (tokensOf e.2) (termOf e.2)) :
    ReadsAs (tokensOf (Value.object entries)) (termOf (Value.object entries)) := by
  rw [tokensOf_object, termOf_object]
  refine readsAs_of_atom (.mark (by decide) _) (by simp) fun n rest hn hrest => ?_
  cases entries with
  | nil => rfl
  | cons e es =>
    rw [List.forall_mem_cons] at h
    rw [List.map_cons, separated_cons, List.length_append, List.length_append, tokensOfEntry,
      List.length_cons, List.length_cons, List.length_singleton] at hn
    rw [List.map_cons, separated_cons, List.append_assoc, List.append_assoc, List.singleton_append,
      tokensOfEntry, List.cons_append, List.cons_append]
    have hends : TermEnds (.mark '\x7d' :: rest) := termEnds_cons (by decide) rest
    have htail := termEnds_tailTokens hends (es.map tokensOfEntry)
    exact atom_dict (.text _ _)
      ((readsAs_text e.1).item (by rw [List.length_singleton]; omega) (termEnds_cons (by decide) _))
      (h.1.reads n _ (by omega) htail) htail (entriesOn_tailTokens h.2 (by omega) _ rest)

/-- The tokens of plain data are read as its term. -/
theorem readsAs_data {d : Nat} {v : Value} (h : Value.Data d v) :
    ReadsAs (tokensOf v) (termOf v) := by
  induction h with
  | null => exact readsAs_word (by decide) rfl
  | bool b => cases b <;> exact readsAs_word (by decide) rfl
  | int _ => exact readsAs_int _
  | str s => exact readsAs_text s
  | list _ ih => exact readsAs_list ih
  | tuple _ ih => exact readsAs_tuple ih
  | object _ _ ih => exact readsAs_object ih

end Reading

/-! ### The value of the term -/

theorem valuesOf_eq {items : List Value} (h : ∀ v ∈ items, (termOf v).value = .ok v) :
    valuesOf (items.map termOf) = .ok items := by
  induction items with
  | nil => rfl
  | cons v vs ih =>
    rw [List.forall_mem_cons] at h
    rw [List.map_cons, valuesOf, h.1, ih h.2]

theorem entryValues_eq {entries : List (String × Value)}
    (h : ∀ e ∈ entries, (termOf e.2).value = .ok e.2) :
    entryValues (entries.map termsOfEntry) = .ok (Value.textEntries entries) := by
  induction entries with
  | nil => rfl
  | cons e es ih =>
    rw [List.forall_mem_cons] at h
    have hkey : (Term.constant (.str e.1)).value = .ok (.str e.1) := rfl
    have hhashable : (Value.str e.1).hashable = true := rfl
    rw [List.map_cons, termsOfEntry, entryValues, hkey, h.1, ih h.2]
    exact if_pos hhashable

theorem value_termOf_int (n : Int) : (termOf (.int n)).value = .ok (.int n) := by
  rw [termOf]
  split
  next hneg =>
    have hvalue : (Term.minus (.constant (.int n.natAbs))).value = .ok (.int (-n.natAbs)) := rfl
    rw [hvalue, Int.ofNat_natAbs_of_nonpos (Int.le_of_lt hneg), Int.neg_neg]
  next hpos =>
    have hvalue : (Term.constant (.int n.natAbs)).value = .ok (.int n.natAbs) := rfl
    rw [hvalue, Int.natAbs_of_nonneg (Int.not_lt.mp hpos)]

/-- The term of plain data stands for it. -/
theorem value_termOf {d : Nat} {v : Value} (h : Value.Data d v) : (termOf v).value = .ok v := by
  induction h with
  | null => rfl
  | bool b => rfl
  | int _ => exact value_termOf_int _
  | str s => rfl
  | list _ ih => rw [termOf_list, Term.value, valuesOf_eq ih]
  | tuple _ ih => rw [termOf_tuple, Term.value, valuesOf_eq ih]
  | object hkeys _ ih =>
    rw [termOf_object, Term.value, entryValues_eq ih]
    exact congrArg (Except.ok ∘ Value.dict) (Value.ofEntries_textEntries hkeys)

end DocGraph.Literal
