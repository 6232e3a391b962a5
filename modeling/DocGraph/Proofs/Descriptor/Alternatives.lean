import Mathlib.Data.List.Infix
import Mathlib.Tactic.MkIffOfInductiveProp
import DocGraph.Proofs.Descriptor.RoundTrip

/-! The alternatives of a type text.

    A type text may begin with a mark, may stand in parentheses, and lists alternatives between
    bars. It is cut at every bar (`alternatives_of_not_whole`), unless it is a record, a spread
    union or a text in which some bar has an opening angle bracket before it and a closing one
    behind it on its line (`alternatives_of_whole`): nothing counts the brackets. In parentheses,
    only the bars count. `refine_kept_iff` says for which unions that does justice to their angle
    brackets. -/

namespace DocGraph.Descriptor

/-! ### Texts that are left whole -/

/-- A bar stands on the line, and a closing angle bracket on the line behind it. -/
def ReachesUnion (cs : List Char) : Prop :=
  ∃ before between after, cs = before ++ '|' :: (between ++ '>' :: after) ∧ '\n' ∉ before ∧
    '\n' ∉ between

/-- A bar stands between an opening angle bracket and a closing one, all on one line. -/
def Spanned (cs : List Char) : Prop :=
  ∃ front rest, cs = front ++ '<' :: rest ∧ ReachesUnion rest

theorem ReachesUnion.first {cs : List Char} (h : ReachesUnion cs) :
    ∃ before between after, cs = before ++ '|' :: (between ++ '>' :: after) ∧ '|' ∉ before ∧
      '\n' ∉ before ∧ '\n' ∉ between := by
  obtain ⟨before, between, after, rfl, hbefore, hbetween⟩ := h
  obtain ⟨front, rest, hbar, hfront⟩ :=
    List.eq_append_cons_of_mem (List.mem_append_right before (List.mem_singleton_self '|'))
  have hline : '\n' ∉ front ++ '|' :: rest := by simp [← hbar, hbefore]
  rw [List.mem_append, List.mem_cons, not_or, not_or] at hline
  refine ⟨front, rest ++ between, after, ?_, hfront, hline.1, ?_⟩
  · have happend := congrArg (· ++ (between ++ '>' :: after)) hbar
    simpa using happend
  · simp [hline.2.2, hbetween]

theorem reachesUnion_iff {cs : List Char} :
    ReachesUnion cs ↔ ∃ bar after,
      (cs.takeWhile (· != '\n')).dropWhile (· != '|') = bar :: after ∧ '>' ∈ after := by
  constructor
  · intro h
    obtain ⟨before, between, after, rfl, hfirst, hbefore, hbetween⟩ := h.first
    have hline : ∀ {part : List Char}, '\n' ∉ part → ∀ x ∈ part, (x != '\n') = true :=
      fun hpart x hx => bne_iff_ne.mpr fun he => hpart (he ▸ hx)
    have hword : ∀ x ∈ before, (x != '|') = true := fun x hx =>
      bne_iff_ne.mpr fun he => hfirst (he ▸ hx)
    refine ⟨'|', between ++ '>' :: after.takeWhile (· != '\n'), ?_, by simp⟩
    rw [List.takeWhile_append_of_pos (hline hbefore), List.takeWhile_cons_of_pos (by decide),
      List.takeWhile_append_of_pos (hline hbetween), List.takeWhile_cons_of_pos (by decide)]
    exact Text.dropWhile_append_of_stop hword (by simp)
  · rintro ⟨bar, rest, hdrop, hclose⟩
    obtain ⟨between, after, rfl⟩ := List.mem_iff_append.mp hclose
    have hbar : bar = '|' := by
      have hhead := List.head?_dropWhile_not (· != '|') (cs.takeWhile (· != '\n'))
      rw [hdrop] at hhead
      simpa using hhead
    have hline := List.takeWhile_append_dropWhile (p := (· != '|')) (l := cs.takeWhile (· != '\n'))
    rw [hdrop, hbar] at hline
    have hbreak : '\n' ∉ cs.takeWhile (· != '\n') := fun hmem =>
      bne_iff_ne.mp (List.mem_takeWhile_imp (p := (· != '\n')) hmem) rfl
    rw [← hline] at hbreak
    simp only [List.mem_append, List.mem_cons, not_or] at hbreak
    refine ⟨_, between, after ++ cs.dropWhile (· != '\n'), ?_, hbreak.1, hbreak.2.2.1⟩
    have hcs := List.takeWhile_append_dropWhile (p := (· != '\n')) (l := cs)
    rw [← hline] at hcs
    simpa using hcs.symm

theorem spanned_cons {c : Char} {cs : List Char} :
    Spanned (c :: cs) ↔ (c = '<' ∧ ReachesUnion cs) ∨ Spanned cs := by
  constructor
  · rintro ⟨front, rest, hcs, hrest⟩
    rcases List.cons_eq_append_iff.mp hcs with ⟨-, hhere⟩ | ⟨front', -, hlater⟩
    · obtain ⟨rfl, rfl⟩ := List.cons.inj hhere
      exact Or.inl ⟨rfl, hrest⟩
    · exact Or.inr ⟨front', rest, hlater, hrest⟩
  · rintro (⟨rfl, hcs⟩ | ⟨front, rest, rfl, hrest⟩)
    · exact ⟨[], cs, rfl, hcs⟩
    · exact ⟨c :: front, rest, rfl, hrest⟩

theorem hasGenericUnion_iff {cs : List Char} : hasGenericUnion cs = true ↔ Spanned cs := by
  induction cs with
  | nil => simp [hasGenericUnion, Spanned]
  | cons c cs ih =>
    rw [spanned_cons, ← ih, reachesUnion_iff, hasGenericUnion]
    cases (cs.takeWhile (· != '\n')).dropWhile (· != '|') with
    | nil => simp
    | cons bar after => simp

instance : DecidablePred Spanned := fun _ => decidable_of_iff _ hasGenericUnion_iff

theorem Spanned.bar_mem {cs : List Char} (h : Spanned cs) : '|' ∈ cs := by
  obtain ⟨front, _, rfl, before, between, after, rfl, -, -⟩ := h
  simp

theorem isSpreadUnion_iff {cs : List Char} :
    isSpreadUnion cs = true ↔
      ∃ inside after, cs = '.' :: '.' :: '.' :: '(' :: (inside ++ ')' :: after) ∧
        '\n' ∉ inside := by
  rw [isSpreadUnion.eq_def]
  split
  · next rest =>
    rw [List.contains_iff_mem, Text.mem_takeWhile_iff]
    constructor
    · rintro ⟨-, inside, after, rfl, hinside⟩
      exact ⟨inside, after, rfl, fun hmem => bne_iff_ne.mp (hinside _ hmem) rfl⟩
    · rintro ⟨inside, after, hcs, hinside⟩
      refine ⟨by decide, inside, after, by simpa using hcs, fun x hx => bne_iff_ne.mpr ?_⟩
      rintro rfl
      exact hinside hx
  · next hother =>
    refine ⟨nofun, ?_⟩
    rintro ⟨inside, after, rfl, -⟩
    exact absurd rfl (hother _)

/-- A type text without its mark that is not taken apart: a record, or a union behind three points
    or between angle brackets. -/
inductive Whole : List Char → Prop
  | record (cs : List Char) : Whole ('\x7b' :: cs)
  | generic {cs : List Char} (hfirst : cs.head? ≠ some '(') (h : Spanned cs) : Whole cs
  | spread {inside after : List Char} (hline : '\n' ∉ inside) (hbar : '|' ∈ inside ++ after) :
      Whole ('.' :: '.' :: '.' :: '(' :: (inside ++ ')' :: after))

/-- A type text without its mark, and the union in it: what stands in the parentheses, if it begins
    with one. The closing one may be missing. -/
inductive Writes : List Char → List Char → Prop
  | closed (union : List Char) : Writes ('(' :: (union ++ [')'])) union
  | unclosed {union : List Char} (hlast : union.getLast? ≠ some ')') : Writes ('(' :: union) union
  | bare {cs : List Char} (hfirst : cs.head? ≠ some '(') : Writes cs cs

theorem not_whole_parenthesis {cs : List Char} : ¬ Whole ('(' :: cs) := by
  rintro (_ | ⟨hfirst, -⟩ | _)
  exact hfirst rfl

theorem exists_writes (cs : List Char) : ∃ union, Writes cs union := by
  cases cs with
  | nil => exact ⟨[], .bare (by simp)⟩
  | cons c rest =>
    by_cases hc : c = '('
    · subst hc
      by_cases hlast : rest.getLast? = some ')'
      · obtain ⟨union, rfl⟩ := List.getLast?_eq_some_iff.mp hlast
        exact ⟨union, .closed union⟩
      · exact ⟨rest, .unclosed hlast⟩
    · exact ⟨c :: rest, .bare (by simpa using hc)⟩

theorem alternatives_of_whole {cs : List Char} (h : Whole cs) : alternatives cs = [cs] := by
  cases h with
  | record => rfl
  | generic hfirst hspanned =>
    rw [alternatives.eq_def]
    split
    · rfl
    · exact absurd rfl hfirst
    · rw [if_pos]
      simp [hspanned.bar_mem, hasGenericUnion_iff.mpr hspanned]
  | @spread inside after hline hbar =>
    have hspread := isSpreadUnion_iff.mpr ⟨inside, after, rfl, hline⟩
    have hmem : '|' ∈ inside ++ ')' :: after := by simpa using hbar
    simp [alternatives, hspread, hmem]

theorem alternatives_of_not_whole {cs union : List Char} (h : ¬ Whole cs)
    (hunion : Writes cs union) : alternatives cs = Text.splitOn '|' union := by
  cases hunion with
  | closed => rw [alternatives, dropParens, dropBrackets_bracketed]
  | unclosed hlast => rw [alternatives, dropParens, dropBrackets, if_pos rfl, if_neg hlast]
  | bare hfirst =>
    rw [alternatives.eq_def]
    split
    · exact absurd (.record _) h
    · exact absurd rfl hfirst
    · rw [if_neg]
      rw [Bool.and_eq_true, Bool.or_eq_true, hasGenericUnion_iff, isSpreadUnion_iff,
        List.contains_iff_mem]
      rintro ⟨hbar, hspanned | ⟨inside, after, rfl, hline⟩⟩
      · exact h (.generic hfirst hspanned)
      · exact h (.spread hline (by simpa using hbar))

/-- A type text with its mark for nullable or not nullable, and the text behind the mark. -/
inductive Marked : List Char → Option Bool → List Char → Prop
  | nullable (cs : List Char) : Marked ('?' :: cs) (some true) cs
  | required (cs : List Char) : Marked ('!' :: cs) (some false) cs
  | plain {cs : List Char} (h : cs.head? ≠ some '?') (h' : cs.head? ≠ some '!') : Marked cs none cs

theorem exists_marked (cs : List Char) : ∃ mark body, Marked cs mark body := by
  by_cases hnullable : cs.head? = some '?'
  · obtain ⟨body, rfl⟩ := List.head?_eq_some_iff.mp hnullable
    exact ⟨_, body, .nullable body⟩
  by_cases hrequired : cs.head? = some '!'
  · obtain ⟨body, rfl⟩ := List.head?_eq_some_iff.mp hrequired
    exact ⟨_, body, .required body⟩
  · exact ⟨none, cs, .plain hnullable hrequired⟩

theorem Marked.nullableMark_eq {cs body : List Char} {mark : Option Bool}
    (h : Marked cs mark body) : nullableMark cs = (mark, body) := by
  cases h with
  | nullable | required => rfl
  | plain h h' =>
    rw [nullableMark.eq_def]
    split
    · exact absurd rfl h
    · exact absurd rfl h'
    · rfl

theorem Marked.typePart_eq {text : String} {body : List Char} {mark : Option Bool}
    (h : Marked text.toList mark body) :
    typePart (some text) = (alternatives body, mark, isSpread body) := by
  rw [typePart, h.nullableMark_eq]

section Refine

variable {clauses : Clauses} {types : List (List Char)} {mark : Option Bool} {spread : Bool}

theorem refine_of_nil_mem [CharacterNames]
    (htype : typePart clauses.typeText = (types, mark, spread))
    (h : [] ∈ types) :
    refine clauses = .error (.malformed (.emptyType clauses.nameText clauses.description)) := by
  have hany : types.any List.isEmpty = true := List.any_eq_true.mpr ⟨[], h, rfl⟩
  simp only [refine, htype, hany, if_true]

theorem refine_of_unnamed [CharacterNames]
    (htype : typePart clauses.typeText = (types, mark, spread))
    (h : [] ∉ types) (hname : clauses.nameText = none) :
    refine clauses =
      .ok ⟨types.map String.ofList, mark, spread, none, clauses.description⟩ := by
  have hany : ¬ types.any List.isEmpty = true := by simpa using h
  simp only [refine, htype, if_neg hany, hname]

theorem refine_of_named [CharacterNames] (htype : typePart clauses.typeText = (types, mark, spread))
    (h : [] ∉ types) {text : List Char} (hname : clauses.nameText = some (String.ofList text))
    (hne : text ≠ []) :
    refine clauses = (subjectOf text).map fun subject =>
      ⟨types.map String.ofList, mark, spread, some subject, clauses.description⟩ := by
  have hany : ¬ types.any List.isEmpty = true := by simpa using h
  have hempty : ¬ (String.ofList text).isEmpty = true := by
    rw [String.isEmpty_iff, String.ofList_eq_empty_iff]
    exact hne
  simp only [refine, htype, if_neg hany, hname, if_neg hempty, String.toList_ofList]
  cases subjectOf text with
  | ok subject => rfl
  | error e => rfl

end Refine

/-! ### Bars inside angle brackets -/

/-- An angle bracket is open at the end of a text. -/
def Open (cs : List Char) : Prop := cs.count '>' < cs.count '<'

instance : DecidablePred Open := fun cs => inferInstanceAs (Decidable (cs.count '>' < cs.count '<'))

/-- A bar lies inside angle brackets. -/
def HasInnerBar (cs : List Char) : Prop := ∃ before after, cs = before ++ '|' :: after ∧ Open before

theorem hasInnerBar_iff {cs : List Char} :
    (∃ before ∈ cs.inits, before ++ ['|'] <+: cs ∧ Open before) ↔ HasInnerBar cs := by
  constructor
  · rintro ⟨before, -, ⟨after, hcs⟩, hopen⟩
    exact ⟨before, after, by simp [← hcs], hopen⟩
  · rintro ⟨before, after, rfl, hopen⟩
    exact ⟨before, by simp, ⟨after, by simp⟩, hopen⟩

instance : DecidablePred HasInnerBar := fun _ => decidable_of_iff _ hasInnerBar_iff

/-- A union whose angle brackets match, without an empty alternative, that is written without a
    mark and is neither a record nor in parentheses. Bars inside angle brackets divide no
    alternatives. -/
@[mk_iff]
structure UnionText (cs : List Char) : Prop where
  matched : ∀ front ∈ cs.inits, front.count '>' ≤ front.count '<'
  even : cs.count '<' = cs.count '>'
  nonempty : cs ≠ []
  first : cs.head? ≠ some '|'
  last : cs.getLast? ≠ some '|'
  filled : ∀ before ∈ cs.inits, before ++ ['|', '|'] <+: cs → Open before
  bare : cs.head? ∉ [some '\x7b', some '(', some '?', some '!']
  notSpread : ¬ ['.', '.', '.', '('] <+: cs

instance : DecidablePred UnionText := fun cs => decidable_of_iff _ (unionText_iff cs).symm

/-- Types that do justice to the angle brackets of a union: they are cut out of it at bars, none of
    them inside angle brackets, and at all of them if no bar lies inside. -/
structure Respects (union : List Char) (types : List (List Char)) : Prop where
  joined : Text.joinWith ['|'] types = union
  outside : ∀ before after, types = before ++ after → before ≠ [] → after ≠ [] →
    ¬ Open (Text.joinWith ['|'] before)
  pieces : ¬ HasInnerBar union → types = Text.splitOn '|' union

/-- A text is refined to types that do justice to the angle brackets of a union. -/
def Kept [CharacterNames] (text : String) (union : List Char) : Prop :=
  ∃ d, refine ⟨some text, none, none⟩ = .ok d ∧ Respects union (d.types.map String.toList)

section Respects

variable {union : List Char}

/-- A union that is left whole has no bar, or one inside angle brackets. -/
theorem respects_whole_iff (h : '|' ∈ union) : Respects union [union] ↔ HasInnerBar union := by
  constructor
  · intro hrespects
    by_contra hinner
    obtain ⟨before, after, hbar⟩ := List.mem_iff_append.mp h
    have hpieces := congrArg List.length (hrespects.pieces hinner)
    have hleft := List.length_pos_iff.mpr (Text.splitOn_ne_nil '|' before)
    have hright := List.length_pos_iff.mpr (Text.splitOn_ne_nil '|' after)
    rw [hbar, Text.splitOn_append, List.length_append, List.length_singleton] at hpieces
    omega
  · intro hinner
    refine ⟨List.intercalate_singleton, fun before after hsplit hbefore hafter => ?_,
      fun hnot => absurd hinner hnot⟩
    have hlength := congrArg List.length hsplit
    have hleft := List.length_pos_iff.mpr hbefore
    have hright := List.length_pos_iff.mpr hafter
    rw [List.length_append, List.length_singleton] at hlength
    omega

/-- All bars of a union can be cut at if none lies inside angle brackets. -/
theorem respects_splitOn_iff : Respects union (Text.splitOn '|' union) ↔ ¬ HasInnerBar union := by
  constructor
  · rintro hrespects ⟨before, after, hunion, hopen⟩
    have hcut : Text.splitOn '|' union = Text.splitOn '|' before ++ Text.splitOn '|' after := by
      rw [hunion, Text.splitOn_append]
    have houtside := hrespects.outside _ _ hcut (Text.splitOn_ne_nil _ _) (Text.splitOn_ne_nil _ _)
    rw [Text.joinWith_splitOn] at houtside
    exact houtside hopen
  · intro hinner
    refine ⟨Text.joinWith_splitOn '|' union, fun before after hsplit hbefore hafter hopen => ?_,
      fun _ => rfl⟩
    refine hinner ⟨_, Text.joinWith ['|'] after, ?_, hopen⟩
    rw [← Text.joinWith_splitOn '|' union, hsplit, Text.joinWith_append _ hafter hbefore]
    rfl

end Respects

/-- A type text alone is refined to its alternatives, unless one is empty. -/
theorem kept_iff [CharacterNames] {text : String} {body union : List Char} {mark : Option Bool}
    (h : Marked text.toList mark body) :
    Kept text union ↔ [] ∉ alternatives body ∧ Respects union (alternatives body) := by
  by_cases hempty : [] ∈ alternatives body
  · have herror : refine ⟨some text, none, none⟩ = _ := refine_of_nil_mem h.typePart_eq hempty
    simp [Kept, herror, hempty]
  · have hok : refine ⟨some text, none, none⟩ = _ := refine_of_unnamed h.typePart_eq hempty rfl
    simp [Kept, hok, hempty]

namespace UnionText

variable {cs : List Char}

theorem first_ne (h : UnionText cs) {c : Char} (hc : c ∈ ['\x7b', '(', '?', '!']) :
    cs.head? ≠ some c :=
  fun he => h.bare (he ▸ List.mem_map_of_mem hc)

/-- Without bars inside angle brackets, the alternatives are the pieces between the bars. -/
theorem nil_not_mem_splitOn (h : UnionText cs) (hinner : ¬ HasInnerBar cs) :
    [] ∉ Text.splitOn '|' cs := by
  rw [Text.nil_mem_splitOn_iff]
  rintro (hempty | hfirst | hlast | ⟨before, after, hdouble⟩)
  · exact h.nonempty hempty
  · exact h.first hfirst
  · exact h.last hlast
  · have hfront : before ++ ['|', '|'] <+: cs := ⟨after, hdouble⟩
    have hopen := h.filled before
      ((List.mem_inits ..).mpr ((List.prefix_append ..).trans hfront)) hfront
    exact hinner ⟨before, '|' :: after, by simp [← hdouble], hopen⟩

theorem whole_iff (h : UnionText cs) : Whole cs ↔ Spanned cs := by
  constructor
  · rintro (_ | ⟨-, hspanned⟩ | _)
    · exact absurd rfl (h.first_ne (c := '\x7b') (by simp))
    · exact hspanned
    · exact absurd ⟨_, rfl⟩ h.notSpread
  · exact .generic (h.first_ne (c := '(') (by simp))

/-- On one line, the angle brackets around a bar are seen. -/
theorem spanned_of_hasInnerBar (h : UnionText cs) (hline : '\n' ∉ cs) (hinner : HasInnerBar cs) :
    Spanned cs := by
  obtain ⟨before, after, rfl, hopen⟩ := hinner
  have heven := h.even
  rw [List.count_append, List.count_append, List.count_cons_of_ne (by decide),
    List.count_cons_of_ne (by decide)] at heven
  rw [Open] at hopen
  have hopens : 0 < before.count '<' := by omega
  have hcloses : 0 < after.count '>' := by omega
  obtain ⟨front, inside, rfl⟩ := List.mem_iff_append.mp (List.count_pos_iff.mp hopens)
  obtain ⟨between, rest, rfl⟩ := List.mem_iff_append.mp (List.count_pos_iff.mp hcloses)
  simp only [List.mem_append, List.mem_cons, not_or] at hline
  exact ⟨front, inside ++ '|' :: (between ++ '>' :: rest), by simp, inside, between, rest, rfl,
    hline.1.2.2, hline.2.2.1⟩

theorem kept_bare_iff [CharacterNames] {type : String} (h : UnionText type.toList) :
    Kept type type.toList ↔ (HasInnerBar type.toList ↔ Spanned type.toList) := by
  rw [kept_iff (.plain (h.first_ne (c := '?') (by simp)) (h.first_ne (c := '!') (by simp)))]
  by_cases hspanned : Spanned type.toList
  · rw [alternatives_of_whole (h.whole_iff.mpr hspanned), respects_whole_iff hspanned.bar_mem]
    simp [hspanned, h.nonempty]
  · rw [alternatives_of_not_whole (fun hw => hspanned (h.whole_iff.mp hw))
      (.bare (h.first_ne (c := '(') (by simp))), respects_splitOn_iff, iff_false_right hspanned]
    exact and_iff_right_of_imp h.nil_not_mem_splitOn

theorem kept_parenthesized_iff [CharacterNames] {type : String} (h : UnionText type.toList) :
    Kept ("(" ++ type ++ ")") type.toList ↔ ¬ HasInnerBar type.toList := by
  have hmarked : Marked ("(" ++ type ++ ")").toList none ('(' :: (type.toList ++ [')'])) := by
    rw [show ("(" ++ type ++ ")").toList = '(' :: (type.toList ++ [')']) by simp]
    exact .plain (by simp) (by simp)
  rw [kept_iff hmarked, alternatives_of_not_whole not_whole_parenthesis (.closed type.toList),
    respects_splitOn_iff]
  exact and_iff_right_of_imp h.nil_not_mem_splitOn

end UnionText

/-- A union whose angle brackets match is refined with justice to them, both as it is and in
    parentheses, exactly if no bar lies inside them and none stands between an opening and a closing
    one on a line. As it is, a bar between two of them on a line has to lie inside, and one that
    lies inside has to be on a line with them; so on one line, no bar inside is ever cut at. In
    parentheses, every bar is cut at. -/
theorem refine_kept_iff [CharacterNames] {type : String} (h : UnionText type.toList) :
    (Kept type type.toList ∧ Kept ("(" ++ type ++ ")") type.toList ↔
      ¬ HasInnerBar type.toList ∧ ¬ Spanned type.toList) ∧
    (Kept type type.toList ↔ (HasInnerBar type.toList ↔ Spanned type.toList)) ∧
    (Kept ("(" ++ type ++ ")") type.toList ↔ ¬ HasInnerBar type.toList) ∧
    ('\n' ∉ type.toList → HasInnerBar type.toList → Spanned type.toList) := by
  refine ⟨?_, h.kept_bare_iff, h.kept_parenthesized_iff, h.spanned_of_hasInnerBar⟩
  rw [h.kept_bare_iff, h.kept_parenthesized_iff]
  constructor
  · rintro ⟨hsame, hinner⟩
    exact ⟨hinner, hsame.not.mp hinner⟩
  · rintro ⟨hinner, hspanned⟩
    exact ⟨iff_of_false hinner hspanned, hinner⟩

/-- Two generic types side by side are taken apart in parentheses only. -/
theorem refine_kept_iff_arrays :
    UnionText "Array<string>|Array<number>".toList ∧
      ¬ Kept "Array<string>|Array<number>" "Array<string>|Array<number>".toList ∧
      Kept "(Array<string>|Array<number>)" "Array<string>|Array<number>".toList := by
  have hunion : UnionText "Array<string>|Array<number>".toList := by decide +kernel
  have hinner : ¬ HasInnerBar "Array<string>|Array<number>".toList := by decide +kernel
  have hspanned : Spanned "Array<string>|Array<number>".toList := by decide +kernel
  obtain ⟨-, hbare, hparenthesized, -⟩ := refine_kept_iff hunion
  exact ⟨hunion, fun hkept => hinner ((hbare.mp hkept).mpr hspanned), hparenthesized.mpr hinner⟩

/-- A generic union is cut inside its angle brackets, in parentheses or over a line break, and two
    generic types side by side are not taken apart. -/
theorem not_kept_generics :
    UnionText "Map<string|number>".toList ∧ UnionText "Map<string,\nnumber|null>".toList ∧
      UnionText "Map<string>|Map<number>".toList ∧
      ¬ Kept "(Map<string|number>)" "Map<string|number>".toList ∧
      ¬ Kept "Map<string,\nnumber|null>" "Map<string,\nnumber|null>".toList ∧
      ¬ Kept "Map<string>|Map<number>" "Map<string>|Map<number>".toList := by
  have hunion : UnionText "Map<string|number>".toList := by decide +kernel
  have hbroken : UnionText "Map<string,\nnumber|null>".toList := by decide +kernel
  have hbeside : UnionText "Map<string>|Map<number>".toList := by decide +kernel
  refine ⟨hunion, hbroken, hbeside, ?_, ?_, ?_⟩
  · exact hunion.kept_parenthesized_iff.not.mpr (by decide +kernel)
  · exact hbroken.kept_bare_iff.not.mpr (by decide +kernel)
  · exact hbeside.kept_bare_iff.not.mpr (by decide +kernel)

end DocGraph.Descriptor
