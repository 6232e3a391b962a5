import DocGraph.Literal.Reader
import DocGraph.Proofs.Literal.Terms

/-! Written data, read back.

    A default is read as JSON first and as an expression only if that fails. The written form of
    plain data is an expression for it. It may be JSON as well, if it is a number, a text in double
    quotes, or a list or a dictionary of such. Where it is, JSON gives the same value
    (`agrees_data`), so that the order of the two readers does not matter and reading undoes writing
    (`read_display`). -/

namespace DocGraph.Json

open Literal (Ends)
open Value (Data displayChars displayEntry)

variable {n : Nat} {rest : List Char}

/-! ### Numbers -/

theorem fractionPart_of_ends (h : Ends rest) : fractionPart rest = (none, rest) := by
  rcases h.cases with rfl | ⟨more, rfl | rfl | rfl | rfl | rfl⟩ <;> rfl

theorem exponentPart_of_ends (h : Ends rest) : exponentPart rest = (none, rest) := by
  rcases h.cases with rfl | ⟨more, rfl | rfl | rfl | rfl | rfl⟩ <;> rfl

theorem number_digits {c : Char} {cs : List Char} (hzero : c ≠ '0')
    (hdigits : ∀ d ∈ c :: cs, Number.isDigit d = true)
    (hlength : (c :: cs).length ≤ Number.digitLimit) (hrest : Ends rest) :
    number (c :: cs ++ rest) = .ok (.int (Number.ofDigits 10 (c :: cs)), rest) ∧
      number ('-' :: (c :: cs ++ rest)) = .ok (.int (-Number.ofDigits 10 (c :: cs)), rest) := by
  have hstop := hrest.stops (p := Number.isDigit) rfl
  have htake := Text.takeWhile_append_of_stop hdigits hstop
  have hdrop := Text.dropWhile_append_of_stop hdigits hstop
  have hminus : c ≠ '-' := by
    rintro rfl
    cases hdigits _ List.mem_cons_self
  rw [List.cons_append] at htake hdrop ⊢
  have hshort : ¬Number.digitLimit < (c :: cs).length := Nat.not_lt.mpr hlength
  constructor
  · rw [number]
    · simp only [htake, hdrop, fractionPart_of_ends hrest, exponentPart_of_ends hrest, hshort,
        decide_false, Bool.and_false, Bool.false_eq_true, if_false, List.isEmpty_cons, numberOf]
    · exact fun _ heq => hminus (List.cons.inj heq).1
    · exact fun _ heq => hzero (List.cons.inj heq).1
  · rw [number]
    · simp only [htake, hdrop, fractionPart_of_ends hrest, exponentPart_of_ends hrest, hshort,
        decide_false, Bool.and_false, Bool.false_eq_true, if_false, List.isEmpty_cons, numberOf,
        if_true]
    · exact fun _ heq => hzero (List.cons.inj heq).1

theorem number_decimal {k : Nat} (h : (Number.decimal k).length ≤ Number.digitLimit)
    (hrest : Ends rest) : number (Number.decimal k ++ rest) = .ok (.int k, rest) := by
  by_cases hk : k = 0
  · rw [hk, Number.decimal_zero]
    rcases hrest.cases with rfl | ⟨more, rfl | rfl | rfl | rfl | rfl⟩ <;> rfl
  · obtain ⟨c, cs, hdigits, hzero⟩ := Number.exists_decimal_eq_cons hk
    have hall : ∀ d ∈ c :: cs, Number.isDigit d = true := fun d hd =>
      @Number.isDigit_of_mem_decimal k d (hdigits ▸ hd)
    rw [hdigits, (number_digits hzero hall (hdigits ▸ h) hrest).1, ← hdigits,
      Number.ofDigits_decimal]

theorem number_minus {k : Nat} (hk : k ≠ 0) (h : (Number.decimal k).length ≤ Number.digitLimit)
    (hrest : Ends rest) : number ('-' :: (Number.decimal k ++ rest)) = .ok (.int (-k), rest) := by
  obtain ⟨c, cs, hdigits, hzero⟩ := Number.exists_decimal_eq_cons hk
  have hall : ∀ d ∈ c :: cs, Number.isDigit d = true := fun d hd =>
    @Number.isDigit_of_mem_decimal k d (hdigits ▸ hd)
  rw [hdigits, (number_digits hzero hall (hdigits ▸ h) hrest).2, ← hdigits,
    Number.ofDigits_decimal]

theorem value_digit {c : Char} {cs : List Char} (h : Number.isDigit c = true) :
    value (n + 1) (c :: cs) = number (c :: cs) := by
  rw [value, atom]
  -- A digit begins none of the other forms.
  all_goals
    intro _ heq
    cases heq
    cases h

theorem value_minus {c : Char} {cs : List Char} (h : Number.isDigit c = true) :
    value (n + 1) ('-' :: c :: cs) = number ('-' :: c :: cs) := by
  rw [value, atom]
  all_goals
    intro _ heq
    cases heq <;> cases h

theorem value_int {k : Int} (h : Number.isTooLong k = false) (hrest : Ends rest) :
    value (n + 1) (displayChars (.int k) ++ rest) = .ok (.int k, rest) := by
  have hlength := Number.length_decimal_le_digitLimit h
  obtain ⟨c, cs, hdigits⟩ := List.exists_cons_of_ne_nil (Number.decimal_ne_nil k.natAbs)
  have hdigit := Literal.isDigit_head_decimal hdigits
  rw [Value.displayChars_int]
  split
  next hneg =>
    have hminus := number_minus (by omega) hlength hrest
    rw [hdigits, List.cons_append] at hminus
    rw [List.cons_append, hdigits, List.cons_append, value_minus hdigit, hminus,
      Int.ofNat_natAbs_of_nonpos (Int.le_of_lt hneg), Int.neg_neg]
  next hpos =>
    have hnumber := number_decimal hlength hrest
    rw [hdigits, List.cons_append] at hnumber ⊢
    rw [value_digit hdigit, hnumber, Int.natAbs_of_nonneg (Int.not_lt.mp hpos)]

/-! ### Texts -/

/-- Only a text in double quotes can be JSON, and then it is read as it is or refused. -/
theorem quotedChars_cases (cs rest : List Char) :
    ∃ body, Text.quotedChars cs ++ rest = '\'' :: body ∨
      (Text.quotedChars cs ++ rest = '"' :: body ∧
        Faithful (textTail (body.length + 1) [] 0 body) cs rest) := by
  rw [Text.quotedChars, List.cons_append, List.append_assoc, List.singleton_append]
  rcases Text.eq_of_isQuote (Text.isQuote_quoteFor (cs.contains '\'') (cs.contains '"')) with
    hquote | hquote
  · rw [hquote]
    exact ⟨_, .inr ⟨rfl, textTail_quoted _ [] cs rest⟩⟩
  · rw [hquote]
    exact ⟨_, .inl rfl⟩

theorem faithful_str (s : String) (n : Nat) (rest : List Char) :
    Faithful (value n (displayChars (.str s) ++ rest)) (.str s) rest := by
  have hform : displayChars (.str s) = Text.quotedChars s.toList := rfl
  cases n with
  | zero => exact .inr ⟨_, rfl⟩
  | succ n =>
    obtain ⟨body, hsingle | ⟨hdouble, hread | ⟨f, hrefused⟩⟩⟩ := quotedChars_cases s.toList rest
    · rw [hform, hsingle]
      exact .inr ⟨_, rfl⟩
    · rw [hform, hdouble, value, List.length_cons, hread]
      exact .inl (by simp only [String.ofList_toList])
    · rw [hform, hdouble, value, List.length_cons, hrefused]
      exact .inr ⟨f, rfl⟩

/-! ### Sequences -/

theorem skipGap_of_begins {c : Char} (h : c ∈ Value.beginnings) (cs : List Char) :
    skipGap (c :: cs) = c :: cs := by
  have hgap : Value.beginnings.any isGap = false := rfl
  exact List.dropWhile_cons_of_neg (List.any_eq_false.mp hgap c h)

/-- JSON reads the written form of a value as the value, or refuses it. -/
structure Agrees (v : Value) : Prop where
  begins : ∃ c cs, displayChars v = c :: cs ∧ c ∈ Value.beginnings
  reads : ∀ n rest, Ends rest → Faithful (value n (displayChars v ++ rest)) v rest

theorem Agrees.skipGap {v : Value} (h : Agrees v) (rest : List Char) :
    skipGap (displayChars v ++ rest) = displayChars v ++ rest := by
  obtain ⟨c, cs, hform, hc⟩ := h.begins
  rw [hform]
  exact skipGap_of_begins hc _

variable {v w : Value} {cs : List Char}

theorem items_of_error {f : Fault} (h : value n cs = .error f) (done : List Value) :
    items (n + 1) done cs = .error f := by
  rw [items, h]

theorem items_close (h : value n cs = .ok (v, ']' :: rest)) (done : List Value) :
    items (n + 1) done cs = .ok (.list (v :: done).reverse, rest) := by
  rw [items, h]
  rfl

theorem items_comma (hw : Agrees w)
    (h : value n cs = .ok (v, ',' :: ' ' :: (displayChars w ++ rest))) (done : List Value) :
    items (n + 1) done cs = items n (v :: done) (displayChars w ++ rest) := by
  rw [items, h]
  exact congrArg (items n (v :: done)) (hw.skipGap rest)

theorem faithful_items {vs : List Value} (hv : Agrees v) (h : ∀ w ∈ vs, Agrees w) (n : Nat)
    (done : List Value) (rest : List Char) :
    Faithful (items n done
        (displayChars v ++ (Value.tailChars (vs.map displayChars) ++ ']' :: rest)))
      (.list (done.reverse ++ v :: vs)) rest := by
  induction vs generalizing v n done with
  | nil =>
    cases n with
    | zero => exact .inr ⟨_, rfl⟩
    | succ n =>
      rcases hv.reads n (']' :: rest) (Literal.ends_cons (by decide) rest) with
        hread | ⟨f, hrefused⟩
      · refine .inl ((items_close hread done).trans ?_)
        rw [List.reverse_cons]
      · exact .inr ⟨f, items_of_error hrefused done⟩
  | cons w vs ih =>
    rw [List.forall_mem_cons] at h
    cases n with
    | zero => exact .inr ⟨_, rfl⟩
    | succ n =>
      have hmore := ih h.1 h.2 n (v :: done)
      rw [List.reverse_cons, List.append_assoc, List.singleton_append] at hmore
      rw [List.map_cons, Value.tailChars_cons, List.cons_append, List.cons_append,
        List.append_assoc]
      rcases hv.reads n (',' :: ' ' :: (displayChars w ++ _)) (Literal.ends_cons (by decide) _) with
        hread | ⟨f, hrefused⟩
      · rwa [items_comma h.1 hread done]
      · exact .inr ⟨f, items_of_error hrefused done⟩

/-- A list that has a first item, and no closing bracket in its place. -/
theorem value_list (hv : Agrees v) (n : Nat) (rest : List Char) :
    value (n + 1) ('[' :: (displayChars v ++ rest)) = items n [] (displayChars v ++ rest) := by
  obtain ⟨c, cs, hform, hc⟩ := hv.begins
  have hclose : c ≠ ']' := by
    rintro rfl
    exact absurd hc (by decide)
  rw [hform, List.cons_append, value, skipGap_of_begins hc]
  split
  next heq => exact absurd (List.cons.inj heq).1 hclose
  next => rfl

theorem faithful_list {items : List Value} (h : ∀ v ∈ items, Agrees v) (n : Nat)
    (rest : List Char) :
    Faithful (value n (displayChars (.list items) ++ rest)) (.list items) rest := by
  rw [Value.displayChars_list, List.cons_append, List.append_assoc, List.singleton_append]
  cases n with
  | zero => exact .inr ⟨_, rfl⟩
  | succ n =>
    cases items with
    | nil => exact .inl rfl
    | cons v vs =>
      rw [List.forall_mem_cons] at h
      rw [List.map_cons, Value.commaJoined_cons, List.append_assoc, value_list h.1]
      exact faithful_items h.1 h.2 n [] rest

/-! ### Entries -/

section Members

variable {name more : List Char}

theorem members_of_textTail_error {f : Fault} (h : textTail (cs.length + 1) [] 0 cs = .error f)
    (done : List (Value × Value)) : members (n + 1) done ('"' :: cs) = .error f := by
  rw [members, List.length_cons, h]

theorem members_of_value_error {f : Fault}
    (htext : textTail (cs.length + 1) [] 0 cs = .ok (name, ':' :: ' ' :: more))
    (hgap : skipGap more = more) (h : value n more = .error f) (done : List (Value × Value)) :
    members (n + 1) done ('"' :: cs) = .error f := by
  have hcolon : skipGap (':' :: ' ' :: more) = ':' :: ' ' :: more := rfl
  have hblank : skipGap (' ' :: more) = more := hgap
  rw [members, List.length_cons, htext]
  simp only [hcolon, hblank, h]

theorem members_close
    (htext : textTail (cs.length + 1) [] 0 cs = .ok (name, ':' :: ' ' :: more))
    (hgap : skipGap more = more) (hvalue : value n more = .ok (v, '\x7d' :: rest))
    (done : List (Value × Value)) :
    members (n + 1) done ('"' :: cs) =
      .ok (.dict (Value.ofEntries ((.str (String.ofList name), v) :: done).reverse), rest) := by
  have hcolon : skipGap (':' :: ' ' :: more) = ':' :: ' ' :: more := rfl
  have hblank : skipGap (' ' :: more) = more := hgap
  have hclose : skipGap ('\x7d' :: rest) = '\x7d' :: rest := rfl
  rw [members, List.length_cons, htext]
  simp only [hcolon, hblank, hvalue, hclose]

theorem members_comma
    (htext : textTail (cs.length + 1) [] 0 cs = .ok (name, ':' :: ' ' :: more))
    (hgap : skipGap more = more) (hvalue : value n more = .ok (v, ',' :: ' ' :: rest))
    (hnext : skipGap rest = rest) (done : List (Value × Value)) :
    members (n + 1) done ('"' :: cs) =
      members n ((.str (String.ofList name), v) :: done) rest := by
  have hcolon : skipGap (':' :: ' ' :: more) = ':' :: ' ' :: more := rfl
  have hblank : skipGap (' ' :: more) = more := hgap
  have hcomma : skipGap (',' :: ' ' :: rest) = ',' :: ' ' :: rest := rfl
  have hafter : skipGap (' ' :: rest) = rest := hnext
  rw [members, List.length_cons, htext]
  simp only [hcolon, hblank, hvalue, hcomma, hafter]

end Members

theorem displayEntry_begins (e : String × Value) :
    ∃ c cs, displayEntry e = c :: cs ∧ c ∈ Value.beginnings :=
  ⟨_, _, rfl, Value.mem_beginnings_of_isQuote (Text.isQuote_quoteFor _ _)⟩

theorem skipGap_displayEntry (e : String × Value) (rest : List Char) :
    skipGap (displayEntry e ++ rest) = displayEntry e ++ rest := by
  obtain ⟨c, cs, hform, hc⟩ := displayEntry_begins e
  rw [hform]
  exact skipGap_of_begins hc _

/-- One entry: it is refused, or its value is read and the reader goes on behind it. -/
theorem members_entry {e : String × Value} (he : Agrees e.2) {more : List Char} (hmore : Ends more)
    (n : Nat) (done : List (Value × Value)) :
    (∃ f, members (n + 1) done (displayEntry e ++ more) = .error f) ∨
      ∃ cs, displayEntry e ++ more = '"' :: cs ∧
        textTail (cs.length + 1) [] 0 cs =
          .ok (e.1.toList, ':' :: ' ' :: (displayChars e.2 ++ more)) ∧
        value n (displayChars e.2 ++ more) = .ok (e.2, more) := by
  have hform : displayEntry e ++ more =
      Text.quotedChars e.1.toList ++ ':' :: ' ' :: (displayChars e.2 ++ more) := by
    rw [displayEntry, List.append_assoc, List.cons_append, List.cons_append]
  rw [hform]
  obtain ⟨body, hsingle | ⟨hdouble, htext | ⟨f, hrefused⟩⟩⟩ :=
    quotedChars_cases e.1.toList (':' :: ' ' :: (displayChars e.2 ++ more))
  · rw [hsingle]
    exact .inl ⟨_, rfl⟩
  · rw [hdouble]
    rcases he.reads n more hmore with hread | ⟨f, hrefused⟩
    · exact .inr ⟨body, rfl, htext, hread⟩
    · exact .inl ⟨f, members_of_value_error htext (he.skipGap more) hrefused done⟩
  · rw [hdouble]
    exact .inl ⟨f, members_of_textTail_error hrefused done⟩

theorem faithful_members {e : String × Value} {es : List (String × Value)} (he : Agrees e.2)
    (h : ∀ f ∈ es, Agrees f.2) (n : Nat) (done : List (Value × Value)) (rest : List Char) :
    Faithful (members n done
        (displayEntry e ++ (Value.tailChars (es.map displayEntry) ++ '\x7d' :: rest)))
      (.dict (Value.ofEntries (done.reverse ++ Value.textEntries (e :: es)))) rest := by
  induction es generalizing e n done with
  | nil =>
    cases n with
    | zero => exact .inr ⟨_, rfl⟩
    | succ n =>
      have hends : Ends ('\x7d' :: rest) := Literal.ends_cons (by decide) rest
      rcases members_entry he hends n done with hrefused | ⟨cs, hform, htext, hread⟩
      · exact .inr hrefused
      · have hclose := members_close htext (he.skipGap _) hread done
        rw [String.ofList_toList, List.reverse_cons, ← hform] at hclose
        exact .inl hclose
  | cons f fs ih =>
    rw [List.forall_mem_cons] at h
    cases n with
    | zero => exact .inr ⟨_, rfl⟩
    | succ n =>
      have hnext := ih h.1 h.2 n ((.str e.1, e.2) :: done)
      rw [List.reverse_cons, List.append_assoc, List.singleton_append] at hnext
      rw [List.map_cons, Value.tailChars_cons, List.cons_append, List.cons_append,
        List.append_assoc]
      rcases members_entry he (Literal.ends_cons (c := ',') (by decide) _) n done with
        hrefused | ⟨cs, hform, htext, hread⟩
      · exact .inr hrefused
      · have hcomma := members_comma htext (he.skipGap _) hread (skipGap_displayEntry f _) done
        rw [String.ofList_toList, ← hform] at hcomma
        rw [hcomma]
        exact hnext

theorem value_object (e : String × Value) (n : Nat) (rest : List Char) :
    value (n + 1) ('\x7b' :: (displayEntry e ++ rest)) = members n [] (displayEntry e ++ rest) := by
  obtain ⟨c, cs, hform, hc⟩ := displayEntry_begins e
  have hclose : c ≠ '\x7d' := by
    rintro rfl
    exact absurd hc (by decide)
  rw [hform, List.cons_append, value, skipGap_of_begins hc]
  split
  next heq => exact absurd (List.cons.inj heq).1 hclose
  next => rfl

theorem faithful_object {entries : List (String × Value)} (hkeys : (entries.map Prod.fst).Nodup)
    (h : ∀ e ∈ entries, Agrees e.2) (n : Nat) (rest : List Char) :
    Faithful (value n (displayChars (.object entries) ++ rest)) (.object entries) rest := by
  rw [Value.displayChars_object, List.cons_append, List.append_assoc, List.singleton_append]
  cases n with
  | zero => exact .inr ⟨_, rfl⟩
  | succ n =>
    cases entries with
    | nil => exact .inl rfl
    | cons e es =>
      rw [List.forall_mem_cons] at h
      have hmembers := faithful_members h.1 h.2 n [] rest
      rw [List.reverse_nil, List.nil_append, Value.ofEntries_textEntries hkeys] at hmembers
      rw [List.map_cons, Value.commaJoined_cons, List.append_assoc, value_object]
      exact hmembers

/-- JSON reads the written form of plain data as the value, or refuses it. -/
theorem agrees_data {d : Nat} {v : Value} (h : Data d v) : Agrees v := by
  refine ⟨h.begins, ?_⟩
  induction h with
  -- words with a capital letter and round brackets begin no JSON
  | null =>
    intro n rest _
    cases n <;> exact .inr ⟨_, rfl⟩
  | bool b =>
    intro n rest _
    cases b <;> cases n <;> exact .inr ⟨_, rfl⟩
  | int hshort =>
    intro n rest hrest
    cases n with
    | zero => exact .inr ⟨_, rfl⟩
    | succ n => exact .inl (value_int hshort hrest)
  | str s => exact fun n rest _ => faithful_str s n rest
  | list h ih => exact fun n rest _ => faithful_list (fun v hv => ⟨(h v hv).begins, ih v hv⟩) n rest
  | tuple h ih =>
    intro n rest _
    rw [Value.displayChars_tuple]
    cases n <;> exact .inr ⟨_, rfl⟩
  | object hkeys h ih =>
    exact fun n rest _ =>
      faithful_object hkeys (fun e he => ⟨(h e he).begins, ih e he⟩) n rest

/-- As a whole document, the written form of plain data is the value, or no JSON. -/
theorem document_displayChars {d : Nat} (h : Data d v) :
    document (displayChars v) = .ok v ∨ ∃ f, document (displayChars v) = .error f := by
  have hagrees := agrees_data h
  have hgap := hagrees.skipGap []
  have hreads := hagrees.reads (2 * (displayChars v).length + 2) [] Literal.ends_nil
  obtain ⟨c, cs, hform, hc⟩ := hagrees.begins
  have hmark : c ≠ '\ufeff' := by
    rintro rfl
    exact absurd hc (by decide)
  rw [List.append_nil] at hgap hreads
  rw [hform] at hgap hreads ⊢
  rw [document, hgap]
  · rcases hreads with hread | ⟨f, hrefused⟩
    · rw [hread]
      exact .inl rfl
    · rw [hrefused]
      exact .inr ⟨f, rfl⟩
  · exact fun _ heq => hmark (List.cons.inj heq).1

end DocGraph.Json

/-! ### Both readers -/

namespace DocGraph.Literal

open Value (Data)

/-- The written form of plain data is an expression for it. -/
theorem evaluate_displayChars [CharacterNames] {v : Value} (h : Data depthLimit v) :
    evaluate v.displayChars = .ok v := by
  obtain ⟨htokens, hlength⟩ := tokens_displayChars h
  have hreads := (readsAs_data h).reads (16 * v.displayChars.length + 16) [] (by omega) (.inl rfl)
  rw [List.append_nil] at hreads
  have hterm : term? v.displayChars.length (tokensOf v) = some (termOf v) := by
    simp [term?, hreads]
  simp only [evaluate, htokens, hterm, value_termOf h]

theorem read_of_data [CharacterNames] {v : Value} (h : Data depthLimit v) :
    read v.display = .ok v := by
  have hform : v.display.toList = v.displayChars := String.toList_ofList
  rw [read, hform]
  rcases Json.document_displayChars h with hjson | ⟨f, hrefused⟩
  · rw [hjson]
  · simp only [hrefused, evaluate_displayChars h]

/-- Reading the written form of plain data gives it back. The form is an expression for the data,
    and where it is JSON as well, which is tried first, it is JSON for the same data. -/
theorem read_display [CharacterNames] (v : Value) (h : Data depthLimit v) :
    read v.display = .ok v ∧ evaluate v.display.toList = .ok v ∧
      ∀ w, Json.document v.display.toList = .ok w → w = v := by
  have hform : v.display.toList = v.displayChars := String.toList_ofList
  refine ⟨read_of_data h, hform ▸ evaluate_displayChars h, fun w hw => ?_⟩
  rw [hform] at hw
  rcases Json.document_displayChars h with hjson | ⟨f, hrefused⟩
  · rw [hjson] at hw
    exact (Except.ok.inj hw).symm
  · rw [hrefused] at hw
    cases hw

/-- Data that is no JSON as a whole, with parts that are. -/
def mixedData : Value :=
  .list [.null, .int (-5), .list [.str "it's", .int 0], .tuple [.str "\x07\"'"],
    .object [("don't", .bool true), ("\n", .tuple [])]]

theorem read_display_mixedData :
    Data depthLimit mixedData ∧ read mixedData.display = .ok mixedData ∧
      evaluate mixedData.display.toList = .ok mixedData ∧
      ∀ w, Json.document mixedData.display.toList = .ok w → w = mixedData := by
  have hint : Number.isTooLong (-5) = false ∧ Number.isTooLong 0 = false := by decide +kernel
  have hdata : Data 200 mixedData := by
    refine .list ?_
    simp only [List.forall_mem_cons, List.not_mem_nil, false_implies, implies_true, and_true]
    refine ⟨.null, .int hint.1, .list ?_, .tuple ?_, .object (by decide) ?_⟩
    · simpa using ⟨Data.str "it's", .int hint.2⟩
    · simpa using Data.str "\x07\"'"
    · simpa using ⟨Data.bool true, .tuple nofun⟩
  exact ⟨hdata, read_display mixedData hdata⟩

end DocGraph.Literal
