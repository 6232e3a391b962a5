import DocGraph.Proofs.Literal.Quoting
import DocGraph.Value.Display

/-! Plain data and its written form.

    Plain data is made of null, truth values, integers short enough to be written, texts, lists,
    tuples and dictionaries under text keys (`Data`). Its written form is a piece between brackets
    with commas in it, or a single word, number or text; it begins with one of a few characters
    (`beginnings`) and holds no control characters. -/

namespace DocGraph.Value

/-- Plain data with brackets nested at most `depth` deep. The keys of a dictionary are texts, each
    there once. -/
inductive Data : Nat → Value → Prop
  | null {depth : Nat} : Data depth null
  | bool {depth : Nat} (b : Bool) : Data depth (bool b)
  | int {depth : Nat} {n : Int} (h : Number.isTooLong n = false) : Data depth (int n)
  | str {depth : Nat} (s : String) : Data depth (str s)
  | list {depth : Nat} {items : List Value} (h : ∀ v ∈ items, Data depth v) :
    Data (depth + 1) (list items)
  | tuple {depth : Nat} {items : List Value} (h : ∀ v ∈ items, Data depth v) :
    Data (depth + 1) (tuple items)
  | object {depth : Nat} {entries : List (String × Value)} (hkeys : (entries.map Prod.fst).Nodup)
    (h : ∀ e ∈ entries, Data depth e.2) : Data (depth + 1) (object entries)

/-! ### Entries under text keys -/

/-- Entries under text keys. -/
def textEntries (entries : List (String × Value)) : List (Value × Value) :=
  entries.map fun e => (str e.1, e.2)

theorem same_str (a b : String) : (str a).same (str b) = (a == b) := by
  rw [same, sameScalar]
  all_goals simp

theorem putEntry_of_new {key value : Value} {es : List (Value × Value)}
    (h : ∀ e ∈ es, e.1.same key = false) : putEntry key value es = es ++ [(key, value)] := by
  induction es with
  | nil => rfl
  | cons e es ih =>
    rw [List.forall_mem_cons] at h
    rw [putEntry, if_neg (by simp [h.1]), ih h.2, List.cons_append]

/-- Entries under distinct text keys are kept as they are. -/
theorem ofEntries_textEntries {entries : List (String × Value)}
    (h : (entries.map Prod.fst).Nodup) : ofEntries (textEntries entries) = textEntries entries := by
  induction entries using List.reverseRecOn with
  | nil => rfl
  | append_singleton entries e ih =>
    rw [List.map_append, List.nodup_append] at h
    obtain ⟨hfront, -, hnew⟩ := h
    have hkeys : ∀ entry ∈ textEntries entries, entry.1.same (str e.1) = false := by
      intro entry hentry
      obtain ⟨f, hf, rfl⟩ := List.mem_map.mp hentry
      have hne : f.1 ≠ e.1 := hnew f.1 (List.mem_map_of_mem hf) e.1 List.mem_cons_self
      exact (same_str f.1 e.1).trans (beq_eq_false_iff_ne.mpr hne)
    have hlast : ofEntries (textEntries (entries ++ [e])) =
        putEntry (str e.1) e.2 (ofEntries (textEntries entries)) := by
      rw [textEntries, List.map_append, ofEntries, List.foldl_append]
      rfl
    rw [hlast, ih hfront, putEntry_of_new hkeys, textEntries, textEntries, List.map_append]
    rfl

/-! ### Written pieces -/

theorem intercalate_cons {α : Type} (sep x : List α) (xs : List (List α)) :
    List.intercalate sep (x :: xs) = x ++ xs.flatMap (sep ++ ·) := by
  induction xs generalizing x with
  | nil => simp
  | cons y ys ih =>
    rw [List.intercalate_cons_cons, ih, List.flatMap_cons, List.append_assoc, List.append_assoc]

/-- What follows a first written item. -/
def tailChars (pieces : List (List Char)) : List Char := pieces.flatMap ([',', ' '] ++ ·)

theorem tailChars_cons (piece : List Char) (pieces : List (List Char)) :
    tailChars (piece :: pieces) = ',' :: ' ' :: (piece ++ tailChars pieces) := rfl

theorem commaJoined_cons (piece : List Char) (pieces : List (List Char)) :
    commaJoined (piece :: pieces) = piece ++ tailChars pieces :=
  intercalate_cons _ _ _

theorem mem_commaJoined {c : Char} {pieces : List (List Char)} (h : c ∈ commaJoined pieces) :
    c = ',' ∨ c = ' ' ∨ ∃ piece ∈ pieces, c ∈ piece := by
  cases pieces with
  | nil => cases h
  | cons piece pieces =>
    rw [commaJoined_cons, tailChars] at h
    simp only [List.mem_append, List.mem_flatMap, List.mem_cons, List.not_mem_nil, or_false] at h ⊢
    grind

theorem displayAll_eq (items : List Value) : displayAll items = items.map displayChars := by
  induction items with
  | nil => rfl
  | cons v vs ih => exact congrArg (displayChars v :: ·) ih

/-- The written form of an entry under a text key. -/
def displayEntry (e : String × Value) : List Char :=
  Text.quotedChars e.1.toList ++ ':' :: ' ' :: displayChars e.2

theorem displayEntries_eq (entries : List (String × Value)) :
    displayEntries (textEntries entries) = entries.map displayEntry := by
  induction entries with
  | nil => rfl
  | cons e es ih => exact congrArg (displayEntry e :: ·) ih

theorem displayChars_list (items : List Value) :
    displayChars (list items) = '[' :: (commaJoined (items.map displayChars) ++ [']']) := by
  rw [← displayAll_eq]
  rfl

/-- A tuple of one ends in a comma. -/
def lastComma (items : List Value) : List Char := if items.length = 1 then [','] else []

theorem displayChars_tuple (items : List Value) :
    displayChars (tuple items) =
      '(' :: ((commaJoined (items.map displayChars) ++ lastComma items) ++ [')']) := by
  rw [← displayAll_eq]
  match items with
  | [] => rfl
  | [v] =>
    have hone : commaJoined (displayAll [v]) = displayChars v := List.intercalate_singleton
    have hcomma : lastComma [v] = [','] := rfl
    rw [hone, hcomma, List.append_assoc]
    rfl
  | v :: w :: vs =>
    have hmany : lastComma (v :: w :: vs) = [] := if_neg (by simp)
    rw [hmany, List.append_nil]
    rfl

theorem displayChars_object (entries : List (String × Value)) :
    displayChars (object entries) =
      '\x7b' :: (commaJoined (entries.map displayEntry) ++ ['\x7d']) := by
  rw [← displayEntries_eq]
  rfl

theorem displayChars_int (n : Int) :
    displayChars (int n) =
      if n < 0 then '-' :: Number.decimal n.natAbs else Number.decimal n.natAbs :=
  String.toList_ofList

/-! ### The characters of a written form -/

/-- The characters that a written form can begin with. -/
def beginnings : List Char :=
  ['N', 'T', 'F', '-', '"', '\'', '[', '(', '\x7b',
    '0', '1', '2', '3', '4', '5', '6', '7', '8', '9']

theorem digitChar_mem_beginnings : ∀ d < 10, Number.digitChar d ∈ beginnings := by decide

theorem mem_beginnings_of_isQuote {quote : Char} (h : Literal.isQuote quote = true) :
    quote ∈ beginnings := by
  rcases Text.eq_of_isQuote h with rfl | rfl <;> decide

theorem Data.begins {depth : Nat} {v : Value} (h : Data depth v) :
    ∃ c cs, displayChars v = c :: cs ∧ c ∈ beginnings := by
  cases h with
  | null => exact ⟨_, _, rfl, by decide⟩
  | bool b => cases b <;> exact ⟨_, _, rfl, by decide⟩
  | @int _ n hshort =>
    rw [displayChars_int]
    split
    · exact ⟨_, _, rfl, by decide⟩
    · obtain ⟨c, cs, hdigits⟩ := List.exists_cons_of_ne_nil (Number.decimal_ne_nil n.natAbs)
      obtain ⟨d, hd, rfl⟩ := @Number.exists_of_mem_decimal n.natAbs c (hdigits ▸ List.mem_cons_self)
      exact ⟨_, cs, hdigits, digitChar_mem_beginnings d hd⟩
  | str s => exact ⟨_, _, rfl, mem_beginnings_of_isQuote (Text.isQuote_quoteFor _ _)⟩
  | list h => exact ⟨_, _, displayChars_list _, by decide⟩
  | tuple h => exact ⟨_, _, displayChars_tuple _, by decide⟩
  | object hkeys h => exact ⟨_, _, displayChars_object _, by decide⟩

theorem le_toNat_of_mem_commaJoined {pieces : List (List Char)}
    (h : ∀ piece ∈ pieces, ∀ c ∈ piece, 32 ≤ c.toNat) : ∀ c ∈ commaJoined pieces, 32 ≤ c.toNat := by
  intro c hc
  rcases mem_commaJoined hc with rfl | rfl | ⟨piece, hpiece, hmem⟩
  · decide
  · decide
  · exact h piece hpiece c hmem

/-- The same for what stands between brackets. -/
theorem le_toNat_of_mem_bracketed {left right : Char} {inner : List Char}
    (hleft : 32 ≤ left.toNat) (hright : 32 ≤ right.toNat) (h : ∀ c ∈ inner, 32 ≤ c.toNat) :
    ∀ c ∈ left :: (inner ++ [right]), 32 ≤ c.toNat := by
  simpa [hleft, hright, or_imp, forall_and] using h

theorem le_toNat_of_all {cs : List Char} (h : cs.all (32 ≤ ·.toNat) = true) :
    ∀ c ∈ cs, 32 ≤ c.toNat := by
  simpa using h

/-- A written form holds no control characters, and so no line breaks. -/
theorem Data.le_toNat {depth : Nat} {v : Value} (h : Data depth v) :
    ∀ c ∈ displayChars v, 32 ≤ c.toNat := by
  induction h with
  | null => exact le_toNat_of_all rfl
  | bool b => cases b <;> exact le_toNat_of_all rfl
  | @int _ n hshort =>
    have hdigits : ∀ c ∈ Number.decimal n.natAbs, 32 ≤ c.toNat := by
      intro c hc
      obtain ⟨d, hd, rfl⟩ := Number.exists_of_mem_decimal hc
      exact Number.le_toNat_digitChar d hd
    rw [displayChars_int]
    split
    · exact List.forall_mem_cons.mpr ⟨by decide, hdigits⟩
    · exact hdigits
  | str s => exact fun c hc => Text.le_toNat_of_mem_quotedChars hc
  | @list _ items h ih =>
    rw [displayChars_list]
    refine le_toNat_of_mem_bracketed (by decide) (by decide) (le_toNat_of_mem_commaJoined ?_)
    exact List.forall_mem_map.mpr ih
  | @tuple _ items h ih =>
    have hcomma : ∀ c ∈ lastComma items, 32 ≤ c.toNat := by
      rw [lastComma]
      split <;> exact le_toNat_of_all rfl
    rw [displayChars_tuple]
    refine le_toNat_of_mem_bracketed (by decide) (by decide) (List.forall_mem_append.mpr
      ⟨le_toNat_of_mem_commaJoined (List.forall_mem_map.mpr ih), hcomma⟩)
  | @object _ entries hkeys h ih =>
    rw [displayChars_object]
    refine le_toNat_of_mem_bracketed (by decide) (by decide) (le_toNat_of_mem_commaJoined ?_)
    rw [List.forall_mem_map]
    intro e he c hc
    rw [displayEntry, List.mem_append, List.mem_cons, List.mem_cons] at hc
    rcases hc with hkey | rfl | rfl | hvalue
    · exact Text.le_toNat_of_mem_quotedChars hkey
    · decide
    · decide
    · exact ih e he c hvalue

end DocGraph.Value
