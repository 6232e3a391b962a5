import DocGraph.Literal.Token
import DocGraph.Proofs.Number.Digits
import DocGraph.Proofs.Text.Pieces

/-! Quoted texts, read back.

    The written form of a text has one escape rule per character (`Text.Escaped`), and from it
    follows what each reader makes of the form. The reader of expressions gets the text itself
    (`textToken_quotedChars`). The reader of JSON knows fewer escapes: on a text in double quotes it
    gets the same text or refuses it (`textTail_quoted`). -/

namespace DocGraph.Text

/-- The characters that are escaped by a letter, with their letters. -/
def escapeLetters (quote : Char) : List (Char × Char) :=
  [(quote, quote), ('\\', '\\'), ('\n', 'n'), ('\r', 'r'), ('\t', 't')]

/-- The marks of escapes by code point, with the number of digits behind them. -/
def escapeWidths : List (Char × Nat) := [('x', 2), ('u', 4), ('U', 8)]

/-- The ways to write a character between quotes: as it is, by a letter, or by its code point. -/
inductive Escaped (quote : Char) : Char → List Char → Prop
  | plain {c : Char} (hquote : c ≠ quote) (hslash : c ≠ '\\') (hcode : 32 ≤ c.toNat) :
    Escaped quote c [c]
  | letter {c x : Char} (h : (c, x) ∈ escapeLetters quote) : Escaped quote c ['\\', x]
  | code {c m : Char} {width : Nat} (h : (m, width) ∈ escapeWidths)
    (hfits : c.toNat < Nat.pow 16 width) : Escaped quote c ('\\' :: m :: hexDigits width c.toNat)

theorem mem_escapeLetters {quote c x : Char} (h : (c, x) ∈ escapeLetters quote) :
    (c = quote ∧ x = quote) ∨ (c = '\\' ∧ x = '\\') ∨ (c = '\n' ∧ x = 'n') ∨
      (c = '\r' ∧ x = 'r') ∨ c = '\t' ∧ x = 't' := by
  simpa [escapeLetters] using h

theorem mem_escapeWidths {m : Char} {width : Nat} (h : (m, width) ∈ escapeWidths) :
    (m = 'x' ∧ width = 2) ∨ (m = 'u' ∧ width = 4) ∨ m = 'U' ∧ width = 8 := by
  simpa [escapeWidths] using h

theorem le_toNat_of_isPrintable {c : Char} (h : isPrintable c = true) : 32 ≤ c.toNat := by
  by_contra hlow
  rw [isPrintable, printableFlips, inClass, if_pos (by omega)] at h
  cases h

theorem escaped_escapeCode (quote c : Char) : Escaped quote c (escapeCode c.toNat) := by
  rw [escapeCode]
  split
  · exact .code (by simp [escapeWidths]) ‹_›
  · split
    · exact .code (by simp [escapeWidths]) ‹_›
    · exact .code (by simp [escapeWidths]) c.val.toNat_lt

theorem escaped_escapeChar (quote c : Char) : Escaped quote c (escapeChar quote c) := by
  rw [escapeChar]
  split_ifs with hself hline hreturn htab hprintable
  · refine .letter ?_
    rcases hself with rfl | rfl <;> simp [escapeLetters]
  · exact .letter (by simp [escapeLetters, hline])
  · exact .letter (by simp [escapeLetters, hreturn])
  · exact .letter (by simp [escapeLetters, htab])
  · rw [not_or] at hself
    exact .plain hself.1 hself.2 (le_toNat_of_isPrintable hprintable)
  · exact escaped_escapeCode quote c

/-- Digits are no quotes, no backslashes and no control characters. -/
theorem plain_of_mem_hexDigits {quote c : Char} (hquote : Literal.isQuote quote = true)
    {width n : Nat} (h : c ∈ hexDigits width n) : c ≠ quote ∧ c ≠ '\\' ∧ 32 ≤ c.toNat := by
  have hall : ∀ d < 16, Literal.isQuote (hexDigit d) = false ∧ hexDigit d ≠ '\\' ∧
      32 ≤ (hexDigit d).toNat := by decide
  obtain ⟨d, hd, rfl⟩ := Number.exists_of_mem_hexDigits h
  obtain ⟨hdigit, hslash, hcode⟩ := hall d hd
  refine ⟨fun hself => ?_, hslash, hcode⟩
  rw [hself, hquote] at hdigit
  cases hdigit

theorem isQuote_quoteFor (hasSingle hasDouble : Bool) :
    Literal.isQuote (quoteFor hasSingle hasDouble) = true := by
  cases hasSingle <;> cases hasDouble <;> rfl

theorem eq_of_isQuote {quote : Char} (h : Literal.isQuote quote = true) :
    quote = '"' ∨ quote = '\'' := by
  simpa [Literal.isQuote] using h

theorem le_toNat_of_isQuote {quote : Char} (h : Literal.isQuote quote = true) :
    32 ≤ quote.toNat := by
  rcases eq_of_isQuote h with rfl | rfl <;> decide

theorem le_toNat_of_escaped {quote c d : Char} {written : List Char}
    (hquote : Literal.isQuote quote = true) (h : Escaped quote c written) (hd : d ∈ written) :
    32 ≤ d.toNat := by
  cases h with
  | plain _ _ hcode =>
    rw [List.mem_singleton] at hd
    rwa [hd]
  | letter h =>
    rw [List.mem_cons, List.mem_singleton] at hd
    rcases hd with rfl | rfl
    · decide
    · rcases mem_escapeLetters h with ⟨-, rfl⟩ | ⟨-, rfl⟩ | ⟨-, rfl⟩ | ⟨-, rfl⟩ | ⟨-, rfl⟩
      · exact le_toNat_of_isQuote hquote
      all_goals decide
  | code hmark hfits =>
    rw [List.mem_cons, List.mem_cons] at hd
    rcases hd with rfl | rfl | hdigit
    · decide
    · rcases mem_escapeWidths hmark with ⟨rfl, -⟩ | ⟨rfl, -⟩ | ⟨rfl, -⟩ <;> decide
    · exact (plain_of_mem_hexDigits hquote hdigit).2.2

/-- A quoted text holds no control characters. -/
theorem le_toNat_of_mem_quotedChars {cs : List Char} {d : Char} (h : d ∈ quotedChars cs) :
    32 ≤ d.toNat := by
  have hquote := isQuote_quoteFor (cs.contains '\'') (cs.contains '"')
  simp only [quotedChars, List.mem_cons, List.mem_append, List.mem_flatMap, List.not_mem_nil,
    or_false] at h
  rcases h with rfl | ⟨c, -, hd⟩ | rfl
  · exact le_toNat_of_isQuote hquote
  · exact le_toNat_of_escaped hquote (escaped_escapeChar _ c) hd
  · exact le_toNat_of_isQuote hquote

end DocGraph.Text

/-! ### In JSON -/

namespace DocGraph.Json

open Text (Escaped escapeChar escapeLetters escapeWidths hexDigits)

variable {opened : Nat} {done more : List Char}

theorem charOf_toNat (c : Char) : charOf c.toNat = c := by
  have hvalid : c.toNat.isValidChar := c.valid
  rw [charOf, if_pos hvalid, Char.ofNat_toNat]

theorem textTail_skip (opened : Nat) (done taken more : List Char) :
    textTail opened done taken.length (taken ++ more) = textTail opened done 0 more := by
  induction taken with
  | nil => rfl
  | cons c taken ih => exact ih

theorem textTail_escape {cs : List Char} {x : Char} {width : Nat}
    (h : escapeAt opened cs = .ok (x, width)) :
    textTail opened done 0 ('\\' :: cs) = textTail opened (x :: done) width cs := by
  rw [textTail, if_neg (by decide), if_pos rfl, h]

theorem textTail_of_error {cs : List Char} {f : Fault} (h : escapeAt opened cs = .error f) :
    textTail opened done 0 ('\\' :: cs) = .error f := by
  rw [textTail, if_neg (by decide), if_pos rfl, h]

theorem escapeAt_letter {c x : Char} (h : (c, x) ∈ escapeLetters '"') (more : List Char) :
    escapeAt opened (x :: more) = .ok (c, 1) := by
  rcases Text.mem_escapeLetters h with
    ⟨rfl, rfl⟩ | ⟨rfl, rfl⟩ | ⟨rfl, rfl⟩ | ⟨rfl, rfl⟩ | ⟨rfl, rfl⟩ <;> rfl

theorem isHighHalf_toNat (c : Char) : isHighHalf c.toNat = false := by
  have hvalid : c.toNat.isValidChar := c.valid
  simp only [Nat.isValidChar] at hvalid
  simp only [isHighHalf, Bool.and_eq_false_iff, decide_eq_false_iff_not]
  omega

theorem hexQuad?_hexDigits {n : Nat} (hfits : n < Nat.pow 16 4) :
    ∃ a b c d, hexDigits 4 n = [a, b, c, d] ∧ hexQuad? a b c d = some n := by
  obtain ⟨a, b, c, d, hdigits⟩ := List.length_eq_four.mp (Number.length_hexDigits 4 n)
  have hall : [a, b, c, d].all (Number.isDigitOf 16) = true :=
    List.all_eq_true.mpr fun _ hmem =>
      @Number.isDigitOf_of_mem_hexDigits 4 n _ (hdigits ▸ hmem)
  refine ⟨a, b, c, d, hdigits, ?_⟩
  rw [hexQuad?, if_pos hall, ← hdigits, Number.ofDigits_hexDigits hfits]

/-- Four digits are the whole escape, since no character is half of a pair. -/
theorem escapeAt_quad {c : Char} (hfits : c.toNat < Nat.pow 16 4) (next : Char) (more : List Char) :
    escapeAt opened ('u' :: (hexDigits 4 c.toNat ++ next :: more)) = .ok (c, 5) := by
  obtain ⟨a, b, d, e, hdigits, hquad⟩ := hexQuad?_hexDigits hfits
  rw [hdigits]
  simp only [List.cons_append, List.nil_append, escapeAt, hquad, isHighHalf_toNat,
    charOf_toNat]

/-- A written character is read as itself or not at all: JSON has no escapes of two or of eight
    digits. -/
theorem textTail_escaped {c : Char} {written : List Char} (h : Escaped '"' c written) :
    textTail opened done 0 (written ++ more) = textTail opened (c :: done) 0 more ∨
      ∃ f, textTail opened done 0 (written ++ more) = .error f := by
  cases h with
  | plain hquote hslash hcode =>
    rw [List.singleton_append, textTail, if_neg hquote, if_neg hslash, if_neg (by omega)]
    exact .inl rfl
  | letter h => exact .inl (textTail_escape (escapeAt_letter h more))
  | code hmark hfits =>
    rcases Text.mem_escapeWidths hmark with ⟨rfl, rfl⟩ | ⟨rfl, rfl⟩ | ⟨rfl, rfl⟩
    · exact .inr ⟨_, textTail_of_error rfl⟩
    · -- an escape of four digits is refused only at the very end of the document
      cases more with
      | nil =>
        obtain ⟨a, b, d, e, hdigits, -⟩ := hexQuad?_hexDigits hfits
        rw [hdigits]
        exact .inr ⟨_, textTail_of_error rfl⟩
      | cons next more =>
        have hskip := textTail_skip opened (c :: done) ('u' :: hexDigits 4 c.toNat) (next :: more)
        rw [List.length_cons, Number.length_hexDigits, List.cons_append] at hskip
        exact .inl ((textTail_escape (escapeAt_quad hfits next more)).trans hskip)
    · exact .inr ⟨_, textTail_of_error rfl⟩

/-- A reading that gives `a` and leaves `rest`, or is refused. -/
def Faithful {α : Type} (r : Reading α) (a : α) (rest : List Char) : Prop :=
  r = .ok (a, rest) ∨ ∃ f, r = .error f

theorem textTail_quoted (opened : Nat) (done cs rest : List Char) :
    Faithful (textTail opened done 0 (cs.flatMap (escapeChar '"') ++ '"' :: rest))
      (done.reverse ++ cs) rest := by
  induction cs generalizing done with
  | nil =>
    rw [List.append_nil]
    exact .inl rfl
  | cons c cs ih =>
    rw [List.flatMap_cons, List.append_assoc]
    rcases textTail_escaped (Text.escaped_escapeChar '"' c) with hread | hrefused
    · have hmore := ih (c :: done)
      rw [List.reverse_cons, List.append_assoc, List.singleton_append] at hmore
      rwa [hread]
    · exact .inr hrefused

end DocGraph.Json

/-! ### In expressions -/

namespace DocGraph.Literal

open Text (Escaped escapeChar escapeLetters escapeWidths hexDigits quotedChars quoteFor)

theorem quotedBody_cons {quote c : Char} (hquote : c ≠ quote) (hslash : c ≠ '\\')
    (hcode : 32 ≤ c.toNat) (more : List Char) :
    quotedBody quote (c :: more) = (quotedBody quote more).map fun r => (c :: r.1, r.2) := by
  have hline : c ≠ '\n' := by
    rintro rfl
    exact absurd hcode (by decide)
  rw [quotedBody.eq_3 _ _ _ (fun _ _ h _ => hslash h), if_neg hquote, if_neg (by simp [*])]

theorem quotedBody_append {quote : Char} {cs : List Char}
    (h : ∀ c ∈ cs, c ≠ quote ∧ c ≠ '\\' ∧ 32 ≤ c.toNat) (more : List Char) :
    quotedBody quote (cs ++ more) = (quotedBody quote more).map fun r => (cs ++ r.1, r.2) := by
  induction cs with
  | nil => simp
  | cons c cs ih =>
    rw [List.forall_mem_cons] at h
    obtain ⟨hquote, hslash, hcode⟩ := h.1
    rw [List.cons_append, quotedBody_cons hquote hslash hcode, ih h.2, Option.map_map]
    rfl

/-- A written character never closes its text. -/
theorem quotedBody_escaped {quote c : Char} {written : List Char}
    (hquote : isQuote quote = true) (h : Escaped quote c written) (more : List Char) :
    quotedBody quote (written ++ more) =
      (quotedBody quote more).map fun r => (written ++ r.1, r.2) := by
  cases h with
  | plain hself hslash hcode => exact quotedBody_cons hself hslash hcode more
  | letter h => rfl
  | code hmark hfits =>
    rw [List.cons_append, List.cons_append, quotedBody,
      quotedBody_append (fun _ hmem => Text.plain_of_mem_hexDigits hquote hmem), Option.map_map]
    rfl

theorem quotedBody_quoted {quote : Char} (hquote : isQuote quote = true) (cs rest : List Char) :
    quotedBody quote (cs.flatMap (escapeChar quote) ++ quote :: rest) =
      some (cs.flatMap (escapeChar quote), rest) := by
  induction cs with
  | nil =>
    have hslash : quote ≠ '\\' := by
      rintro rfl
      cases hquote
    rw [List.flatMap_nil, List.nil_append, quotedBody.eq_3 _ _ _ (fun _ _ h _ => hslash h),
      if_pos rfl]
  | cons c cs ih =>
    rw [List.flatMap_cons, List.append_assoc,
      quotedBody_escaped hquote (Text.escaped_escapeChar quote c), ih]
    rfl

theorem head_ne_of_escaped {quote c d : Char} {written more : List Char}
    (hquote : isQuote quote = true) (h : Escaped quote c written)
    (hhead : (written ++ more).head? = some d) : d ≠ quote := by
  have hslash : '\\' ≠ quote := by
    rintro rfl
    cases hquote
  cases h with
  | plain hself _ _ =>
    cases hhead
    exact hself
  | letter _ =>
    cases hhead
    exact hslash
  | code _ _ =>
    cases hhead
    exact hslash

/-- Two quotes in a row are an empty text, unless a third one follows. -/
theorem not_tripled {quote : Char} (hquote : isQuote quote = true) (cs : List Char)
    {rest : List Char} (hrest : ∀ c ∈ rest.head?, isQuote c = false) (more : List Char) :
    cs.flatMap (escapeChar quote) ++ quote :: rest ≠ quote :: quote :: more := by
  intro htriple
  cases cs with
  | nil =>
    have hthird : rest = quote :: more := (List.cons.inj htriple).2
    rw [hthird] at hrest
    rw [hrest quote rfl] at hquote
    cases hquote
  | cons c cs =>
    rw [List.flatMap_cons, List.append_assoc] at htriple
    exact head_ne_of_escaped hquote (Text.escaped_escapeChar quote c)
      (congrArg List.head? htriple) rfl

theorem hexEscape?_hexDigits {width n : Nat} (h : n < Nat.pow 16 width) (more : List Char) :
    hexEscape? width (hexDigits width n ++ more) = some (n, width + 1) := by
  have htake : (hexDigits width n ++ more).take width = hexDigits width n :=
    List.take_left' (Number.length_hexDigits width n)
  have hall : (hexDigits width n).all (Number.isDigitOf 16) = true :=
    List.all_eq_true.mpr fun _ hmem => Number.isDigitOf_of_mem_hexDigits hmem
  simp only [hexEscape?, htake, Number.length_hexDigits, hall, decide_true, Bool.and_true, if_true,
    Number.ofDigits_hexDigits h]

theorem toNat_le (c : Char) : c.toNat ≤ 0x10ffff := by
  have hvalid : c.toNat.isValidChar := c.valid
  simp only [Nat.isValidChar] at hvalid
  omega

variable [CharacterNames]

theorem decodeBody_skip (bytes : Bool) (taken more : List Char) :
    decodeBody bytes taken.length (taken ++ more) = decodeBody bytes 0 more := by
  induction taken with
  | nil => rfl
  | cons c taken ih => exact ih

theorem escapeOf_letter {quote c x : Char} (hquote : isQuote quote = true)
    (h : (c, x) ∈ escapeLetters quote) (more : List Char) :
    escapeOf false (x :: more) = some (.code c.toNat 1) := by
  rcases Text.mem_escapeLetters h with
    ⟨rfl, rfl⟩ | ⟨rfl, rfl⟩ | ⟨rfl, rfl⟩ | ⟨rfl, rfl⟩ | ⟨rfl, rfl⟩
  · rcases Text.eq_of_isQuote hquote with rfl | rfl <;> rfl
  all_goals rfl

theorem escapeOf_code {m : Char} {width n : Nat} (h : (m, width) ∈ escapeWidths)
    (hfits : n < Nat.pow 16 width) (hcode : n ≤ 0x10ffff) (more : List Char) :
    escapeOf false (m :: (hexDigits width n ++ more)) = some (.code n (width + 1)) := by
  rcases Text.mem_escapeWidths h with ⟨rfl, rfl⟩ | ⟨rfl, rfl⟩ | ⟨rfl, rfl⟩ <;>
    simp [escapeOf, hexEscape?_hexDigits hfits, hcode, Number.isDigitOf, Number.digitValue?]

/-- A written character stands for its code point. -/
theorem decodeBody_escaped {quote c : Char} {written : List Char}
    (hquote : isQuote quote = true) (h : Escaped quote c written) (more : List Char) :
    decodeBody false 0 (written ++ more) = (decodeBody false 0 more).map (c.toNat :: ·) := by
  cases h with
  | plain _ hslash _ => rw [List.singleton_append, decodeBody, if_neg hslash]
  | letter h =>
    rw [List.cons_append, List.singleton_append, decodeBody, if_pos rfl]
    simp only [escapeOf_letter hquote h]
    rfl
  | @code m width hmark hfits =>
    rw [List.cons_append, List.cons_append, decodeBody, if_pos rfl]
    simp only [escapeOf_code hmark hfits (toNat_le c)]
    -- the escape takes its mark and its digits, which are then passed over
    have hskip := decodeBody_skip false (m :: hexDigits width c.toNat) more
    rw [List.length_cons, Number.length_hexDigits, List.cons_append] at hskip
    rw [hskip]

theorem decodeBody_quoted {quote : Char} (hquote : isQuote quote = true) (cs : List Char) :
    decodeBody false 0 (cs.flatMap (escapeChar quote)) = some (cs.map Char.toNat) := by
  induction cs with
  | nil => rfl
  | cons c cs ih =>
    rw [List.flatMap_cons, decodeBody_escaped hquote (Text.escaped_escapeChar quote c), ih]
    rfl

theorem quotedToken_quoted {quote : Char} (hquote : isQuote quote = true) (cs : List Char) :
    quotedToken ⟨false, false, false⟩ (cs.flatMap (escapeChar quote)) = some (.text cs) := by
  have hchars : (cs.map Char.toNat).map Json.charOf = cs := by
    rw [List.map_map]
    exact (List.map_congr_left fun c _ => Json.charOf_toNat c).trans (List.map_id cs)
  simp [quotedToken, decodeBody_quoted hquote, hchars]

theorem textToken_of_quotedBody {q : Quotation} {quote : Char} {cs body after : List Char}
    (htriple : ∀ more, cs ≠ quote :: quote :: more)
    (h : quotedBody quote cs = some (body, after)) :
    textToken q (quote :: cs) = (quotedToken q body).map fun t => (t, after) := by
  match cs, htriple, h with
  | [], _, h => cases h
  | [b], _, h => simp only [textToken, h, Option.bind_eq_bind, Option.bind_some]
  | b :: c :: more, htriple, h =>
    have hfirst : ¬(quote = b ∧ b = c) := by
      rintro ⟨rfl, rfl⟩
      exact htriple more rfl
    simp only [textToken, if_neg hfirst, h, Option.bind_eq_bind, Option.bind_some]

/-- The written form of a text is a text token, if no quote follows it. -/
theorem textToken_quotedChars (cs : List Char) {rest : List Char}
    (hrest : ∀ c ∈ rest.head?, isQuote c = false) :
    textToken ⟨false, false, false⟩ (quotedChars cs ++ rest) = some (.text cs, rest) := by
  have hquote := Text.isQuote_quoteFor (cs.contains '\'') (cs.contains '"')
  rw [quotedChars, List.cons_append, List.append_assoc, List.singleton_append,
    textToken_of_quotedBody (not_tripled hquote cs hrest) (quotedBody_quoted hquote cs rest),
    quotedToken_quoted hquote]
  rfl

end DocGraph.Literal
