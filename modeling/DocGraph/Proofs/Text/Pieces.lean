import Mathlib.Data.List.DropRight
import Mathlib.Data.List.TakeWhile
import DocGraph.Text.Basic

/-! Laws of cutting and trimming text.

    Cutting text into pieces and joining pieces undo one another, as long as no piece holds the
    separator; a piece is empty where a separator has nothing beside it (`nil_mem_splitOn_iff`).
    Trimming takes away what it should at either end, up to the first character that
    stays (`trimWith_append`); a text is trimmed exactly if both its ends stay
    (`trimWith_eq_self_iff`). Neither makes parts that were not there: a part without the separator
    lies in one piece (`exists_infix_of_infix_joinWith`). -/

namespace DocGraph.Text

/-! ### Pieces -/

theorem splitOn_eq (sep : Char) : ∀ cs : List Char, splitOn sep cs = cs.splitOn sep
  | [] => rfl
  | c :: cs => by
    have hne : cs.splitOn sep ≠ [] := List.splitOn_ne_nil sep cs
    rw [splitOn, splitOn_eq sep cs, List.splitOn_cons_eq_if_modifyHead]
    by_cases hc : c = sep
    · simp [hc]
    · cases hs : cs.splitOn sep with
      | nil => exact absurd hs hne
      | cons piece pieces => simp [hc]

theorem splitOn_ne_nil (sep : Char) (cs : List Char) : splitOn sep cs ≠ [] := by
  rw [splitOn_eq]
  exact List.splitOn_ne_nil sep cs

theorem joinWith_splitOn (sep : Char) (cs : List Char) : joinWith [sep] (splitOn sep cs) = cs := by
  rw [splitOn_eq, joinWith, List.intercalate_splitOn]

theorem splitOn_joinWith {sep : Char} {pieces : List (List Char)} (hne : pieces ≠ [])
    (h : ∀ piece ∈ pieces, sep ∉ piece) : splitOn sep (joinWith [sep] pieces) = pieces := by
  rw [splitOn_eq, joinWith, List.splitOn_intercalate sep h hne]

/-- No piece holds the separator. -/
theorem not_mem_of_mem_splitOn {sep : Char} : ∀ {cs piece : List Char},
    piece ∈ splitOn sep cs → sep ∉ piece
  | [], piece, h => by
    rw [splitOn, List.mem_singleton] at h
    simp [h]
  | c :: cs, piece, h => by
    rw [splitOn] at h
    by_cases hc : c = sep
    · rw [if_pos hc] at h
      rcases List.mem_cons.mp h with rfl | hrest
      · exact List.not_mem_nil
      · exact not_mem_of_mem_splitOn hrest
    · rw [if_neg hc] at h
      cases hs : splitOn sep cs with
      | nil => exact absurd hs (splitOn_ne_nil sep cs)
      | cons first pieces =>
        simp only [hs] at h
        rcases List.mem_cons.mp h with rfl | hrest
        · have hfirst : sep ∉ first := not_mem_of_mem_splitOn (hs ▸ List.mem_cons_self)
          exact fun hm => (List.mem_cons.mp hm).elim (fun he => hc he.symm) hfirst
        · exact not_mem_of_mem_splitOn (hs ▸ List.mem_cons_of_mem _ hrest)

/-- What stands at the head of the first piece stands at the head of the whole. -/
theorem joinWith_cons_append (sep head first : List Char) (pieces : List (List Char)) :
    joinWith sep ((head ++ first) :: pieces) = head ++ joinWith sep (first :: pieces) := by
  cases pieces <;> simp [joinWith, List.intercalate_cons_cons]

theorem joinWith_append (sep : List Char) {ys : List (List Char)} (hys : ys ≠ []) :
    ∀ {xs : List (List Char)}, xs ≠ [] →
      joinWith sep (xs ++ ys) = joinWith sep xs ++ (sep ++ joinWith sep ys)
  | [], h => absurd rfl h
  | [x], _ => by
    rw [List.singleton_append, joinWith, List.intercalate_cons_of_ne_nil hys, joinWith,
      List.intercalate_singleton, List.append_assoc, joinWith]
  | x :: x' :: xs, _ => by
    have ih := joinWith_append sep hys (List.cons_ne_nil x' xs)
    simp only [joinWith, List.cons_append, List.intercalate_cons_cons, List.append_assoc] at ih ⊢
    rw [ih]

/-- The characters of joined pieces are those of the pieces, and the separator. -/
theorem mem_joinWith {sep c : Char} : ∀ {pieces : List (List Char)},
    c ∈ joinWith [sep] pieces → c = sep ∨ ∃ piece ∈ pieces, c ∈ piece
  | [], h => absurd h List.not_mem_nil
  | [piece], h => by
    rw [joinWith, List.intercalate_singleton] at h
    exact Or.inr ⟨piece, List.mem_singleton_self piece, h⟩
  | piece :: next :: pieces, h => by
    rw [joinWith, List.intercalate_cons_cons, List.mem_append, List.mem_append,
      List.mem_singleton] at h
    rcases h with (hpiece | rfl) | hrest
    · exact Or.inr ⟨piece, List.mem_cons_self, hpiece⟩
    · exact Or.inl rfl
    · rcases mem_joinWith hrest with rfl | ⟨other, hmem, hother⟩
      · exact Or.inl rfl
      · exact Or.inr ⟨other, List.mem_cons_of_mem _ hmem, hother⟩

theorem mem_joinWith_of_mem {sep c : Char} {piece : List Char} (hc : c ∈ piece) :
    ∀ {pieces : List (List Char)}, piece ∈ pieces → c ∈ joinWith [sep] pieces
  | [], h => absurd h List.not_mem_nil
  | [other], h => by
    rw [joinWith, List.intercalate_singleton]
    exact List.mem_singleton.mp h ▸ hc
  | other :: next :: pieces, h => by
    rw [joinWith, List.intercalate_cons_cons]
    rcases List.mem_cons.mp h with rfl | hrest
    · exact List.mem_append_left _ (List.mem_append_left _ hc)
    · exact List.mem_append_right _ (mem_joinWith_of_mem hc hrest)

/-- The characters of a piece are among those of the text. -/
theorem mem_of_mem_splitOn {sep c : Char} {cs piece : List Char} (h : piece ∈ splitOn sep cs)
    (hc : c ∈ piece) : c ∈ cs := by
  rw [← joinWith_splitOn sep cs]
  exact mem_joinWith_of_mem hc h

theorem splitOn_append (sep : Char) (xs ys : List Char) :
    splitOn sep (xs ++ sep :: ys) = splitOn sep xs ++ splitOn sep ys := by
  rw [splitOn_eq, splitOn_eq, splitOn_eq, List.splitOn_append_cons_self]

/-- A separator at the head cuts off an empty piece, another character belongs to the first. -/
theorem splitOn_cons (sep c : Char) (cs : List Char) :
    ∃ first rest, splitOn sep cs = first :: rest ∧
      splitOn sep (c :: cs) = if c = sep then [] :: first :: rest else (c :: first) :: rest := by
  obtain ⟨first, rest, hsplit⟩ := List.exists_cons_of_ne_nil (splitOn_ne_nil sep cs)
  refine ⟨first, rest, hsplit, ?_⟩
  rw [splitOn, hsplit]

/-- What stands before the text without a separator belongs to its first piece. -/
theorem splitOn_append_of_not_mem {sep : Char} {cs first : List Char} {rest : List (List Char)}
    (hsplit : splitOn sep cs = first :: rest) : ∀ {front : List Char}, sep ∉ front →
      splitOn sep (front ++ cs) = (front ++ first) :: rest
  | [], _ => hsplit
  | c :: front, h => by
    rw [List.mem_cons, not_or] at h
    obtain ⟨hc, hfront⟩ := h
    rw [List.cons_append, splitOn, if_neg (Ne.symm hc), splitOn_append_of_not_mem hsplit hfront]
    rfl

theorem nil_eq_head_splitOn {sep : Char} {cs first : List Char} {rest : List (List Char)}
    (h : splitOn sep cs = first :: rest) : first = [] ↔ cs = [] ∨ cs.head? = some sep := by
  cases cs with
  | nil =>
    obtain ⟨rfl, -⟩ := List.cons.inj h
    simp
  | cons c cs =>
    obtain ⟨_, _, -, hcons⟩ := splitOn_cons sep c cs
    rw [h] at hcons
    by_cases hc : c = sep
    · rw [if_pos hc] at hcons
      simp [(List.cons.inj hcons).1, hc]
    · rw [if_neg hc] at hcons
      simp [(List.cons.inj hcons).1, hc]

/-- Behind the first piece, one is empty if a separator stands last or two stand side by side. -/
theorem nil_mem_tail_splitOn_iff {sep : Char} {cs : List Char} :
    [] ∈ (splitOn sep cs).tail ↔ cs.getLast? = some sep ∨ [sep, sep] <:+: cs := by
  induction cs with
  | nil => simp [splitOn]
  | cons c cs ih =>
    obtain ⟨first, rest, hsplit, hcons⟩ := splitOn_cons sep c cs
    have hlast : (c :: cs).getLast? = some sep ↔ (cs = [] ∧ c = sep) ∨ cs.getLast? = some sep := by
      cases cs with
      | nil => simp
      | cons d cs => simp
    rw [hsplit, List.tail_cons] at ih
    rw [hcons, hlast, List.infix_cons_iff, List.prefix_cons_iff]
    by_cases hc : c = sep
    · rw [if_pos hc, List.tail_cons, List.mem_cons, eq_comm, nil_eq_head_splitOn hsplit, ih]
      have hnext : [sep] <+: cs ↔ cs.head? = some sep := by
        cases cs <;> simp [List.prefix_cons_iff, eq_comm]
      simp only [hc, List.cons.injEq, true_and, and_true, List.cons_ne_nil, exists_eq_left',
        false_or, hnext]
      exact or_or_or_comm
    · rw [if_neg hc, List.tail_cons, ih]
      simp [hc, Ne.symm hc]

/-- A piece is empty exactly if a separator has nothing before it or behind it, or there is nothing
    at all. -/
theorem nil_mem_splitOn_iff {sep : Char} {cs : List Char} :
    [] ∈ splitOn sep cs ↔
      cs = [] ∨ cs.head? = some sep ∨ cs.getLast? = some sep ∨ [sep, sep] <:+: cs := by
  obtain ⟨first, rest, hsplit⟩ := List.exists_cons_of_ne_nil (splitOn_ne_nil sep cs)
  have htail : [] ∈ (splitOn sep cs).tail ↔ _ := nil_mem_tail_splitOn_iff
  rw [hsplit, List.tail_cons] at htail
  rw [hsplit, List.mem_cons, eq_comm, nil_eq_head_splitOn hsplit, htail, or_assoc]

theorem map_toList_ofList (pieces : List (List Char)) :
    (pieces.map String.ofList).map String.toList = pieces := by
  rw [List.map_map]
  exact List.map_id'' (fun _ => String.toList_ofList) pieces

/-- Joining strings is joining their characters. -/
theorem joined_ofList (sep : String) (pieces : List (List Char)) :
    joined sep (pieces.map String.ofList) = String.ofList (joinWith sep.toList pieces) := by
  rw [← String.toList_inj, joined, String.toList_intercalate, map_toList_ofList,
    String.toList_ofList, joinWith]

/-! ### Trimming -/

variable {p : Char → Bool} {cs : List Char}

theorem dropWhile_eq_self_iff : cs.dropWhile p = cs ↔ ∀ c ∈ cs.head?, p c = false := by
  cases cs with
  | nil => simp
  | cons c rest =>
    simp only [List.head?_cons, Option.mem_some_iff, forall_eq']
    constructor
    · intro h
      by_contra hc
      rw [List.dropWhile_cons_of_pos (by simpa using hc)] at h
      have hle := (List.dropWhile_suffix p (l := rest)).length_le
      rw [h, List.length_cons] at hle
      omega
    · intro hc
      exact List.dropWhile_cons_of_neg (by simp [hc])

theorem dropEndWhile_eq_self_iff : dropEndWhile p cs = cs ↔ ∀ c ∈ cs.getLast?, p c = false := by
  rw [dropEndWhile, List.reverse_eq_iff, dropWhile_eq_self_iff, List.head?_reverse]

/-- The longest run from the start ends where a character stops it. -/
theorem takeWhile_append_of_stop {rest : List Char} (h : ∀ c ∈ cs, p c = true)
    (hstop : ∀ c ∈ rest.head?, p c = false) : (cs ++ rest).takeWhile p = cs := by
  rw [List.takeWhile_append_of_pos h]
  cases rest with
  | nil => simp
  | cons c rest => simp [hstop c rfl]

theorem dropWhile_append_of_stop {rest : List Char} (h : ∀ c ∈ cs, p c = true)
    (hstop : ∀ c ∈ rest.head?, p c = false) : (cs ++ rest).dropWhile p = rest := by
  rw [List.dropWhile_append_of_pos h, dropWhile_eq_self_iff.mpr hstop]

theorem cut_append {sep : Char} {left : List Char} (h : sep ∉ left) (right : List Char) :
    cut sep (left ++ sep :: right) = (left, some right) := by
  have hin : ∀ c ∈ left, (c != sep) = true := fun c hc => bne_iff_ne.mpr fun he => h (he ▸ hc)
  have hstop : ∀ c ∈ (sep :: right).head?, (c != sep) = false := by simp
  rw [cut, takeWhile_append_of_stop hin hstop, dropWhile_append_of_stop hin hstop]

theorem cut_of_not_mem {sep : Char} {cs : List Char} (h : sep ∉ cs) : cut sep cs = (cs, none) := by
  have hin : ∀ c ∈ cs, (c != sep) = true := fun c hc => bne_iff_ne.mpr fun he => h (he ▸ hc)
  rw [cut, List.takeWhile_eq_self_iff.mpr hin, List.dropWhile_eq_nil_iff.mpr hin]

/-- A character of the longest run from the start, and what stands before it. -/
theorem mem_takeWhile_iff {c : Char} :
    c ∈ cs.takeWhile p ↔
      p c = true ∧ ∃ front rest, cs = front ++ c :: rest ∧ ∀ x ∈ front, p x = true := by
  constructor
  · intro h
    obtain ⟨front, rest, hrun⟩ := List.mem_iff_append.mp h
    have hall : ∀ x ∈ front, p x = true := fun x hx =>
      List.mem_takeWhile_imp (l := cs) (hrun ▸ List.mem_append_left _ hx)
    refine ⟨List.mem_takeWhile_imp h, front, rest ++ cs.dropWhile p, ?_, hall⟩
    rw [← List.cons_append, ← List.append_assoc, ← hrun, List.takeWhile_append_dropWhile]
  · rintro ⟨hc, front, rest, rfl, hfront⟩
    rw [List.takeWhile_append_of_pos hfront, List.takeWhile_cons_of_pos hc]
    exact List.mem_append_right _ List.mem_cons_self

theorem trimWith_eq_nil_iff : trimWith p cs = [] ↔ ∀ c ∈ cs, p c = true := by
  rw [trimWith, dropEndWhile, List.reverse_eq_nil_iff, List.dropWhile_eq_nil_iff]
  simp only [List.mem_reverse]
  constructor
  · intro h
    refine List.dropWhile_eq_nil_iff.mp ?_
    by_contra hne
    exact Bool.eq_false_iff.mp (List.head_dropWhile_not p hne) (h _ (List.head_mem hne))
  · exact fun h c hc => h c (List.dropWhile_subset p hc)

/-- A text is trimmed exactly if both its ends stay. -/
theorem trimWith_eq_self_iff :
    trimWith p cs = cs ↔ (∀ c ∈ cs.head?, p c = false) ∧ ∀ c ∈ cs.getLast?, p c = false := by
  rw [← dropWhile_eq_self_iff, ← dropEndWhile_eq_self_iff, trimWith]
  constructor
  · intro h
    have hdrop : cs.dropWhile p = cs := by
      refine (List.dropWhile_suffix p).eq_of_length_le ?_
      conv_lhs => rw [← h]
      exact (List.rdropWhile_prefix p _).length_le
    rw [hdrop] at h
    exact ⟨hdrop, h⟩
  · rintro ⟨hfirst, hlast⟩
    rw [hfirst, hlast]

/-- A trimmed text does not begin with a character to be trimmed. -/
theorem head_trimWith (p : Char → Bool) (cs : List Char) :
    ∀ c ∈ (trimWith p cs).head?, p c = false := by
  intro c hc
  have hfront : trimWith p cs <+: cs.dropWhile p := List.rdropWhile_prefix p _
  obtain ⟨tail, htail⟩ := List.head?_eq_some_iff.mp hc
  rw [htail] at hfront
  obtain ⟨rest, hrest⟩ := hfront
  have hhead := List.head?_dropWhile_not p cs
  rw [← hrest] at hhead
  simpa using hhead

/-- A trimmed text has nothing left to trim. -/
theorem trimWith_trimWith (p : Char → Bool) (cs : List Char) :
    trimWith p (trimWith p cs) = trimWith p cs := by
  refine trimWith_eq_self_iff.mpr ⟨head_trimWith p cs, fun c hc => ?_⟩
  rw [trimWith, dropEndWhile, List.getLast?_reverse] at hc
  have hhead := List.head?_dropWhile_not p (cs.dropWhile p).reverse
  rw [Option.mem_def.mp hc] at hhead
  simpa using hhead

theorem trim_toList {s : String} (h : trimmed s = s) : trim s.toList = s.toList := by
  conv_rhs => rw [← h, trimmed, onText, String.toList_ofList]

/-- Trimming takes away what stands around a trimmed text. -/
theorem trimWith_append (h : trimWith p cs = cs) {before after : List Char}
    (hbefore : ∀ c ∈ before, p c = true) (hafter : ∀ c ∈ after, p c = true) :
    trimWith p (before ++ (cs ++ after)) = cs := by
  rcases List.eq_nil_or_concat cs with rfl | ⟨front, last, hcs⟩
  · exact trimWith_eq_nil_iff.mpr (by simpa using fun c hc => hc.elim (hbefore c) (hafter c))
  obtain ⟨hfirst, hlast⟩ := trimWith_eq_self_iff.mp h
  have hhead : (before ++ (cs ++ after)).dropWhile p = cs ++ after := by
    refine dropWhile_append_of_stop hbefore ?_
    rw [List.head?_append_of_ne_nil _ (by simp [hcs])]
    exact hfirst
  have hend : dropEndWhile p (cs ++ after) = cs := by
    rw [dropEndWhile, List.reverse_append,
      List.dropWhile_append_of_pos (by simpa using hafter)]
    exact dropEndWhile_eq_self_iff.mpr hlast
  rw [trimWith, hhead, hend]

/-- What stands behind a trimmed text is trimmed at its end only. -/
theorem exists_trimWith_append (h : trimWith p cs = cs) (hne : cs ≠ []) (rest : List Char) :
    ∃ kept, trimWith p (cs ++ rest) = cs ++ kept ∧ kept <+: rest := by
  obtain ⟨hfirst, hlast⟩ := trimWith_eq_self_iff.mp h
  have hhead : (cs ++ rest).dropWhile p = cs ++ rest := by
    refine dropWhile_eq_self_iff.mpr ?_
    rwa [List.head?_append_of_ne_nil _ hne]
  rw [trimWith, hhead, dropEndWhile, List.reverse_append, List.dropWhile_append]
  split
  · refine ⟨[], ?_, List.nil_prefix⟩
    rw [List.append_nil]
    exact dropEndWhile_eq_self_iff.mpr hlast
  · refine ⟨dropEndWhile p rest, ?_, List.rdropWhile_prefix p rest⟩
    rw [List.reverse_append, List.reverse_reverse, dropEndWhile]

/-! ### Parts of texts -/

section Parts

variable {part : List Char} {sep : Char}

/-- A part without the separator ends before it. -/
theorem prefix_of_prefix_append_cons {back : List Char} (hsep : sep ∉ part)
    (h : part <+: cs ++ sep :: back) : part <+: cs := by
  rcases List.prefix_or_prefix_of_prefix h (List.prefix_append cs (sep :: back)) with hp | hp
  · exact hp
  · obtain ⟨tail, rfl⟩ := hp
    have htail : tail <+: sep :: back := (List.prefix_append_right_inj cs).mp h
    rcases List.prefix_cons_iff.mp htail with rfl | ⟨more, rfl, _⟩
    · exact ⟨[], by simp⟩
    · exact absurd (List.mem_append_right cs List.mem_cons_self) hsep

/-- A part without the separator lies on one side of it. -/
theorem infix_append_cons {back : List Char} (hsep : sep ∉ part) :
    ∀ {cs : List Char}, part <:+: cs ++ sep :: back → part <:+: cs ∨ part <:+: back
  | [], h => by
    rcases List.infix_cons_iff.mp h with hp | hrest
    · have hfront : part <+: [] := prefix_of_prefix_append_cons hsep hp
      exact Or.inl hfront.isInfix
    · exact Or.inr hrest
  | c :: cs, h => by
    rcases List.infix_cons_iff.mp h with hp | hrest
    · have hfront : part <+: c :: cs := prefix_of_prefix_append_cons hsep hp
      exact Or.inl hfront.isInfix
    · exact (infix_append_cons hsep hrest).imp_left List.infix_cons

/-- A part without the separator lies in one of the pieces. -/
theorem exists_infix_of_infix_joinWith (hne : part ≠ []) (hsep : sep ∉ part) :
    ∀ {pieces : List (List Char)}, part <:+: joinWith [sep] pieces →
      ∃ piece ∈ pieces, part <:+: piece
  | [], h => absurd (List.eq_nil_of_infix_nil h) hne
  | [piece], h => by
    rw [joinWith, List.intercalate_singleton] at h
    exact ⟨piece, List.mem_singleton_self piece, h⟩
  | piece :: next :: pieces, h => by
    rw [joinWith, List.intercalate_cons_cons, List.append_assoc, List.singleton_append] at h
    rcases infix_append_cons hsep h with hpiece | hrest
    · exact ⟨piece, List.mem_cons_self, hpiece⟩
    · obtain ⟨other, hmem, hother⟩ := exists_infix_of_infix_joinWith hne hsep hrest
      exact ⟨other, List.mem_cons_of_mem _ hmem, hother⟩

theorem infix_joinWith_of_mem {piece : List Char} : ∀ {pieces : List (List Char)},
    piece ∈ pieces → piece <:+: joinWith [sep] pieces
  | [], h => absurd h List.not_mem_nil
  | [other], h => by
    obtain rfl := List.mem_singleton.mp h
    exact ⟨[], [], by simp [joinWith]⟩
  | other :: next :: pieces, h => by
    rw [joinWith, List.intercalate_cons_cons]
    rcases List.mem_cons.mp h with rfl | hrest
    · rw [List.append_assoc]
      exact (List.prefix_append piece _).isInfix
    · exact (infix_joinWith_of_mem hrest).trans (List.suffix_append _ _).isInfix

theorem infix_of_mem_splitOn {piece : List Char} (h : piece ∈ splitOn sep cs) : piece <:+: cs := by
  have hjoined : piece <:+: joinWith [sep] (splitOn sep cs) := infix_joinWith_of_mem h
  rwa [joinWith_splitOn] at hjoined

/-- A text is trimmed by taking away from its ends. -/
theorem trimWith_isInfix (p : Char → Bool) (cs : List Char) : trimWith p cs <:+: cs :=
  (List.rdropWhile_prefix p _).isInfix.trans (List.dropWhile_suffix p).isInfix

/-- Unifying breaks makes no part that was not there, unless it has a break. -/
theorem prefix_of_prefix_unifyBreaks : ∀ {cs part : List Char}, '\n' ∉ part →
    part <+: unifyBreaks cs → part <+: cs := by
  intro cs
  fun_induction unifyBreaks cs with
  | case1 cs ih =>
    intro part hbreak h
    rcases List.prefix_cons_iff.mp h with rfl | ⟨more, rfl, _⟩
    · exact List.nil_prefix
    · exact absurd List.mem_cons_self hbreak
  | case2 c cs _ ih =>
    intro part hbreak h
    rcases List.prefix_cons_iff.mp h with rfl | ⟨more, rfl, hmore⟩
    · exact List.nil_prefix
    · rw [List.mem_cons, not_or] at hbreak
      exact List.prefix_cons_iff.mpr (Or.inr ⟨more, rfl, ih hbreak.2 hmore⟩)
  | case3 => exact fun _ h => h

theorem infix_of_infix_unifyBreaks {part : List Char} (hbreak : '\n' ∉ part) :
    ∀ {cs : List Char}, part <:+: unifyBreaks cs → part <:+: cs := by
  intro cs
  fun_induction unifyBreaks cs with
  | case1 cs ih =>
    intro h
    rcases List.infix_cons_iff.mp h with hp | hrest
    · have hfront : part <+: '\r' :: '\n' :: cs :=
        prefix_of_prefix_unifyBreaks hbreak (by rwa [unifyBreaks])
      exact hfront.isInfix
    · exact List.infix_cons (List.infix_cons (ih hrest))
  | case2 c cs hc ih =>
    intro h
    rcases List.infix_cons_iff.mp h with hp | hrest
    · have hfront : part <+: c :: cs := by
        refine prefix_of_prefix_unifyBreaks hbreak ?_
        rwa [unifyBreaks]
        exact hc
      exact hfront.isInfix
    · exact List.infix_cons (ih hrest)
  | case3 => exact fun h => h

end Parts

/-! ### Single places -/

/-- A text without a pattern has nothing to remove. -/
theorem eraseFirst_of_not_infix {pattern : List Char} : ∀ {cs : List Char},
    ¬ pattern <:+: cs → eraseFirst pattern cs = cs
  | [], _ => rfl
  | c :: cs, h => by
    have hhere : ¬ pattern.isPrefixOf (c :: cs) = true := fun hp =>
      h (List.isPrefixOf_iff_prefix.mp hp).isInfix
    have hrest : ¬ pattern <:+: cs := fun hi => h (List.infix_cons hi)
    rw [eraseFirst, if_neg hhere, eraseFirst_of_not_infix hrest]

/-- A pattern at the head of a text is removed. -/
theorem eraseFirst_append (pattern cs : List Char) : eraseFirst pattern (pattern ++ cs) = cs := by
  cases h : pattern ++ cs with
  | nil => exact (List.append_eq_nil_iff.mp h).2.symm
  | cons c rest =>
    have hhere : pattern.isPrefixOf (c :: rest) = true := by
      rw [← h]
      exact List.isPrefixOf_iff_prefix.mpr (List.prefix_append _ _)
    rw [eraseFirst, if_pos hhere, ← h, List.drop_left]

theorem eraseFirst_self (pattern : List Char) : eraseFirst pattern pattern = [] := by
  have hwhole := eraseFirst_append pattern []
  rwa [List.append_nil] at hwhole

/-- A text without carriage returns has no break to unify. -/
theorem unifyBreaks_of_not_mem : ∀ {cs : List Char}, '\r' ∉ cs → unifyBreaks cs = cs
  | [], _ => rfl
  | c :: cs, h => by
    rw [List.mem_cons, not_or] at h
    obtain ⟨hc, hrest⟩ := h
    have hstep : unifyBreaks (c :: cs) = c :: unifyBreaks cs := by
      rw [unifyBreaks]
      rintro _ rfl
      exact absurd rfl hc
    rw [hstep, unifyBreaks_of_not_mem hrest]

end DocGraph.Text
