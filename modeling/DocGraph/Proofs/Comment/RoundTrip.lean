import DocGraph.Comment
import DocGraph.Proofs.Text.Pieces

/-! Writing tags as a comment, and reading them back.

    A tag is written on a line of its own, and the further lines of its value on lines below it, all
    behind a gutter of stars that may be indented in any way (`render`). A tag is `Printable` if
    what is written for it cannot be taken for something else: above all, no further line starts a
    tag. Printable tags are read back as they were (`tags_render`). -/

namespace DocGraph.Comment

/-! ### Writing -/

/-- Indentation: blanks and tabs. -/
def Indent := { cs : List Char // ∀ c ∈ cs, isIndent c = true }

/-- The lines of a tag's value. -/
def valueLines (t : Tag) : List (List Char) := Text.splitOn '\n' t.value.toList

/-- The lines of a tag: its name with the first line of its value, and the further lines. -/
def tagLines (t : Tag) : List (List Char) :=
  (if t.value = "" then t.name.toList
    else t.name.toList ++ ' ' :: (valueLines t).headD []) :: (valueLines t).tail

/-- A line behind the gutter. -/
def guttered (indent : Indent) (line : List Char) : List Char := indent.val ++ '*' :: ' ' :: line

/-- The lines of a comment: the star that opens it, the lines of its tags, and the indentation of
    what closes it. -/
def commentLines (indents : Nat → Indent) (ending : Indent) (ts : List Tag) : List (List Char) :=
  ['*'] :: ((ts.flatMap tagLines).mapIdx fun i => guttered (indents i)) ++ [ending.val]

/-- The comment with given tags, each line indented as it is said to be. -/
def render (indents : Nat → Indent) (ending : Indent) (ts : List Tag) : String :=
  String.ofList (Text.joinWith ['\n'] (commentLines indents ending ts))

/-! ### Tags that can be written -/

/-- A line that starts a tag: a name alone, or a name with a blank or a tab and any text. -/
def StartsTag (line : List Char) : Prop :=
  ∃ word rest, word ≠ [] ∧ (∀ c ∈ word, Text.isWord c = true) ∧ line = '@' :: word ++ rest ∧
    ∀ c ∈ rest.head?, isIndent c = true

/-- A tag that is told from others and from its surroundings when it is written. -/
structure Printable (t : Tag) : Prop where
  name : ∃ word, word ≠ [] ∧ (∀ c ∈ word, Text.isWord c = true) ∧ t.name.toList = '@' :: word
  trimmed : Text.trimmed t.value = t.value
  noReturn : '\r' ∉ t.value.toList
  noPlaceholder : ¬ placeholder <:+: t.value.toList
  further : ∀ line ∈ (valueLines t).tail, ¬ StartsTag line

/-! ### Lines that start tags -/

theorem isIndent_iff {c : Char} : isIndent c = true ↔ c = ' ' ∨ c = '\t' := by
  simp [isIndent]

theorem isMargin_iff {c : Char} : isMargin c = true ↔ c = ' ' ∨ c = '\t' ∨ c = '\n' := by
  simp [isMargin, isIndent, or_assoc]

/-- No margin is part of a word. -/
theorem not_isMargin_of_isWord {c : Char} (h : Text.isWord c = true) : isMargin c = false := by
  by_contra hc
  rcases isMargin_iff.mp (by simpa using hc) with rfl | rfl | rfl <;> exact absurd h (by decide)

theorem not_isMargin_of_not_isBlank {c : Char} (h : Text.isBlank c = false) :
    isMargin c = false := by
  by_contra hc
  rcases isMargin_iff.mp (by simpa using hc) with rfl | rfl | rfl <;> exact absurd h (by decide)

/-- How the start of a tag is read. -/
theorem tagStart?_word {word rest : List Char} (hne : word ≠ [])
    (hword : ∀ c ∈ word, Text.isWord c = true) (hrest : ∀ c ∈ rest.head?, isIndent c = true) :
    tagStart? ('@' :: word ++ rest) = some ('@' :: word, rest.tail?) := by
  have hstop : ∀ c ∈ rest.head?, Text.isWord c = false := by
    intro c hc
    rcases isIndent_iff.mp (hrest c hc) with rfl | rfl <;> rfl
  rw [List.cons_append, tagStart?]
  simp only [Text.takeWhile_append_of_stop hword hstop, Text.dropWhile_append_of_stop hword hstop]
  rw [if_neg (by simpa using hne)]
  cases rest with
  | nil => rfl
  | cons c text => simp [hrest c rfl]

theorem startsTag_of_isSome {line : List Char} (h : (tagStart? line).isSome = true) :
    StartsTag line := by
  cases line with
  | nil => exact absurd h Bool.false_ne_true
  | cons c rest =>
    by_cases hc : c = '@'
    · subst hc
      rw [tagStart?] at h
      refine ⟨rest.takeWhile Text.isWord, rest.dropWhile Text.isWord, ?_, ?_, ?_, ?_⟩
      · intro hword
        simp [hword] at h
      · exact fun c hc => List.mem_takeWhile_imp hc
      · rw [List.cons_append, List.takeWhile_append_dropWhile]
      · intro c hc
        cases hdrop : rest.dropWhile Text.isWord with
        | nil => simp [hdrop] at hc
        | cons d text =>
          obtain rfl : d = c := by simpa [hdrop] using hc
          by_contra hind
          simp [hdrop, hind] at h
    · have hnone : tagStart? (c :: rest) = none := by
        rw [tagStart?]
        rintro _ he
        exact hc (List.cons.inj he).1
      simp [hnone] at h

/-- The lines that start a tag are those in which a start is found. -/
theorem startsTag_iff {line : List Char} : StartsTag line ↔ (tagStart? line).isSome = true := by
  refine ⟨?_, startsTag_of_isSome⟩
  rintro ⟨word, rest, hne, hword, rfl, hrest⟩
  rw [tagStart?_word hne hword hrest]
  rfl

instance (line : List Char) : Decidable (StartsTag line) := decidable_of_iff _ startsTag_iff.symm

/-! ### One tag -/

theorem valueLines_eq_cons (t : Tag) :
    valueLines t = (valueLines t).headD [] :: (valueLines t).tail := by
  cases h : valueLines t with
  | nil => exact absurd h (Text.splitOn_ne_nil _ _)
  | cons first more => rfl

theorem valueLines_of_empty {t : Tag} (h : t.value = "") : valueLines t = [[]] := by
  rw [valueLines, h]
  rfl

theorem joinWith_valueLines (t : Tag) :
    Text.joinWith ['\n'] ((valueLines t).headD [] :: (valueLines t).tail) = t.value.toList := by
  rw [← valueLines_eq_cons, valueLines, Text.joinWith_splitOn]

/-- The text of a tag's lines. -/
theorem joinWith_tagLines (t : Tag) :
    Text.joinWith ['\n'] (tagLines t) =
      t.name.toList ++ if t.value = "" then [] else ' ' :: t.value.toList := by
  rw [tagLines]
  by_cases h : t.value = ""
  · rw [if_pos h, if_pos h, valueLines_of_empty h, List.append_nil]
    exact List.intercalate_singleton
  · rw [if_neg h, if_neg h, Text.joinWith_cons_append]
    congr 1
    rw [← joinWith_valueLines]
    exact Text.joinWith_cons_append ['\n'] [' '] _ _

theorem toList_ne_nil {s : String} (h : s ≠ "") : s.toList ≠ [] := by
  rwa [ne_eq, String.toList_eq_nil_iff]

/-- Lines that start no tag wait for the one that does. -/
theorem foldr_gather_of_not_startsTag {ts : List Tag} : ∀ {lines : List (List Char)},
    (∀ line ∈ lines, ¬ StartsTag line) → lines.foldr gather ([], ts) = (lines, ts)
  | [], _ => rfl
  | line :: lines, h => by
    obtain ⟨hline, hrest⟩ := List.forall_mem_cons.mp h
    have hnone : tagStart? line = none := by
      rwa [startsTag_iff, Bool.not_eq_true, Option.isSome_eq_false_iff, Option.isNone_iff_eq_none]
        at hline
    rw [List.foldr_cons, foldr_gather_of_not_startsTag hrest, gather, hnone]

namespace Printable

variable {t : Tag}

/-- A tag is built again from its name and the lines of its value. -/
theorem buildTag_eq (h : Printable t) :
    buildTag t.name.toList (if t.value = "" then none else some ((valueLines t).headD []))
      (valueLines t).tail = t := by
  have hname : String.ofList t.name.toList = t.name := String.ofList_toList
  by_cases hempty : t.value = ""
  · have hvalue : Text.joinWith ['\n'] [placeholder] = placeholder := List.intercalate_singleton
    simp only [if_pos hempty, valueLines_of_empty hempty, buildTag, hname, Option.getD_none,
      List.tail_cons, hvalue, Text.eraseFirst_self]
    cases t
    subst hempty
    rfl
  · simp only [if_neg hempty, buildTag, hname, Option.getD_some, joinWith_valueLines,
      Text.eraseFirst_of_not_infix h.noPlaceholder, Text.trim_toList h.trimmed,
      String.ofList_toList]

/-- The lines of a tag, put together, are the tag. -/
theorem foldr_tagLines (h : Printable t) (ts : List Tag) :
    (tagLines t).foldr gather ([], ts) = ([], t :: ts) := by
  obtain ⟨word, hne, hword, hname⟩ := h.name
  have hstart : tagStart? (if t.value = "" then t.name.toList
      else t.name.toList ++ ' ' :: (valueLines t).headD []) =
      some (t.name.toList, if t.value = "" then none else some ((valueLines t).headD [])) := by
    rw [hname]
    by_cases hempty : t.value = ""
    · have hrest : ∀ c ∈ ([] : List Char).head?, isIndent c = true := by simp
      have halone := tagStart?_word hne hword hrest
      rw [List.append_nil] at halone
      rw [if_pos hempty, if_pos hempty, halone]
      rfl
    · have hrest : ∀ c ∈ (' ' :: (valueLines t).headD []).head?, isIndent c = true := by
        simp [isIndent]
      rw [if_neg hempty, if_neg hempty]
      exact tagStart?_word hne hword hrest
  rw [tagLines, List.foldr_cons, foldr_gather_of_not_startsTag h.further, gather, hstart]
  simp only [h.buildTag_eq]

/-- Neither end of what is written for a tag is margin. -/
theorem ends (h : Printable t) :
    (∃ rest, Text.joinWith ['\n'] (tagLines t) = '@' :: rest) ∧
      ∀ c ∈ (Text.joinWith ['\n'] (tagLines t)).getLast?, isMargin c = false := by
  obtain ⟨word, hne, hword, hname⟩ := h.name
  rw [joinWith_tagLines, hname]
  refine ⟨⟨_, rfl⟩, fun c hc => ?_⟩
  by_cases hempty : t.value = ""
  · rw [if_pos hempty, List.append_nil, List.getLast?_cons_of_ne_nil hne] at hc
    exact not_isMargin_of_isWord (hword c (List.mem_of_getLast? hc))
  · rw [if_neg hempty, List.getLast?_append_of_ne_nil _ (List.cons_ne_nil _ _),
      List.getLast?_cons_of_ne_nil (toList_ne_nil hempty)] at hc
    have hends := Text.trimWith_eq_self_iff.mp (Text.trim_toList h.trimmed)
    exact not_isMargin_of_not_isBlank (hends.2 c hc)

/-- Nothing in the lines of a tag ends a line. -/
theorem not_mem_tagLines (h : Printable t) {line : List Char} (hline : line ∈ tagLines t) :
    '\n' ∉ line ∧ '\r' ∉ line := by
  have hpiece : ∀ piece ∈ valueLines t, '\n' ∉ piece ∧ '\r' ∉ piece := fun piece hp =>
    ⟨Text.not_mem_of_mem_splitOn hp, fun hc => h.noReturn (Text.mem_of_mem_splitOn hp hc)⟩
  obtain ⟨hfirst, hfurther⟩ := List.forall_mem_cons.mp (valueLines_eq_cons t ▸ hpiece)
  obtain ⟨word, _, hword, hname⟩ := h.name
  have hnamed : '\n' ∉ t.name.toList ∧ '\r' ∉ t.name.toList := by
    rw [hname]
    constructor <;>
    · intro hc
      rcases List.mem_cons.mp hc with he | hc
      · exact absurd he (by decide)
      · exact absurd (hword _ hc) (by decide)
  rcases List.mem_cons.mp hline with rfl | hmem
  · split
    · exact hnamed
    · simp only [List.mem_append, List.mem_cons, not_or]
      exact ⟨⟨hnamed.1, by decide, hfirst.1⟩, hnamed.2, by decide, hfirst.2⟩
  · exact hfurther line hmem

end Printable

/-! ### Reading -/

theorem foldr_flatMap_tagLines : ∀ {ts : List Tag}, (∀ t ∈ ts, Printable t) →
    (ts.flatMap tagLines).foldr gather ([], []) = ([], ts)
  | [], _ => rfl
  | t :: ts, h => by
    obtain ⟨ht, hts⟩ := List.forall_mem_cons.mp h
    rw [List.flatMap_cons, List.foldr_append, foldr_flatMap_tagLines hts, ht.foldr_tagLines]

theorem flatMap_tagLines_ne_nil {ts : List Tag} (h : ts ≠ []) : ts.flatMap tagLines ≠ [] := by
  obtain ⟨t, rest, rfl⟩ := List.exists_cons_of_ne_nil h
  simp [tagLines]

/-- Neither end of what is written for tags is margin. -/
theorem ends_flatMap_tagLines : ∀ {ts : List Tag}, ts ≠ [] → (∀ t ∈ ts, Printable t) →
    (∃ rest, Text.joinWith ['\n'] (ts.flatMap tagLines) = '@' :: rest) ∧
      ∀ c ∈ (Text.joinWith ['\n'] (ts.flatMap tagLines)).getLast?, isMargin c = false
  | [], hne, _ => absurd rfl hne
  | [t], _, h => by
    rw [List.flatMap_singleton]
    exact (h t (List.mem_singleton_self t)).ends
  | t :: next :: ts, _, h => by
    obtain ⟨ht, hts⟩ := List.forall_mem_cons.mp h
    obtain ⟨⟨rest, hrest⟩, hlast⟩ := ends_flatMap_tagLines (List.cons_ne_nil next ts) hts
    obtain ⟨first, hfirst⟩ := ht.ends.1
    have hlines := flatMap_tagLines_ne_nil (List.cons_ne_nil next ts)
    have hne : Text.joinWith ['\n'] ((next :: ts).flatMap tagLines) ≠ [] := by
      rw [hrest]
      exact List.cons_ne_nil _ _
    rw [List.flatMap_cons, Text.joinWith_append _ hlines (by simp [tagLines]), hfirst]
    refine ⟨⟨_, rfl⟩, fun c hc => hlast c ?_⟩
    rwa [List.getLast?_append_of_ne_nil _ (by simp),
      List.getLast?_append_of_ne_nil _ hne] at hc

section Layout

variable {indents : Nat → Indent} {ending : Indent} {ts : List Tag}

theorem dropWhile_guttered (indent : Indent) (line : List Char) :
    (guttered indent line).dropWhile isIndent = '*' :: ' ' :: line :=
  Text.dropWhile_append_of_stop indent.property (by simp [isIndent])

/-- Nothing in the lines of a comment ends a line. -/
theorem not_mem_commentLines (h : ∀ t ∈ ts, Printable t) {line : List Char}
    (hline : line ∈ commentLines indents ending ts) : '\n' ∉ line ∧ '\r' ∉ line := by
  have hindent : ∀ indent : Indent, '\n' ∉ indent.val ∧ '\r' ∉ indent.val := fun indent =>
    ⟨fun hc => absurd (indent.property _ hc) (by decide),
      fun hc => absurd (indent.property _ hc) (by decide)⟩
  rw [commentLines, List.mem_append, List.mem_cons, List.mem_singleton] at hline
  rcases hline with (rfl | hmem) | rfl
  · decide
  · obtain ⟨i, hi, rfl⟩ := List.exists_of_mem_mapIdx hmem
    obtain ⟨t, ht, htag⟩ := List.mem_flatMap.mp (List.getElem_mem hi)
    obtain ⟨hfeed, hreturn⟩ := (h t ht).not_mem_tagLines htag
    simp only [guttered, List.mem_append, List.mem_cons, not_or]
    exact ⟨⟨(hindent _).1, by decide, by decide, hfeed⟩, (hindent _).2, by decide, by decide,
      hreturn⟩
  · exact hindent ending

/-- The body of a comment has the lines of its tags, between two that are empty. -/
theorem bodyLines_render (h : ∀ t ∈ ts, Printable t) :
    bodyLines (Text.joinWith ['\n'] (commentLines indents ending ts)) =
      [[]] ++ (ts.flatMap tagLines ++ [[]]) := by
  have hreturn : '\r' ∉ Text.joinWith ['\n'] (commentLines indents ending ts) := by
    intro hc
    rcases Text.mem_joinWith hc with he | ⟨line, hline, hmem⟩
    · exact absurd he (by decide)
    · exact (not_mem_commentLines h hline).2 hmem
  have hlines : (((ts.flatMap tagLines).mapIdx fun i => guttered (indents i)).map
      (List.dropWhile isIndent)).map dropStar = ts.flatMap tagLines := by
    rw [List.map_map]
    refine List.ext_getElem (by simp) fun i _ _ => ?_
    simp [dropWhile_guttered, dropStar, isIndent]
  have hending : ending.val.dropWhile isIndent = [] :=
    List.dropWhile_eq_nil_iff.mpr ending.property
  rw [bodyLines, Text.unifyBreaks_of_not_mem hreturn,
    Text.splitOn_joinWith (by simp [commentLines])
      fun line hline => (not_mem_commentLines h hline).1,
    commentLines, List.map_append, List.map_cons, List.cons_append]
  simp only [List.map_cons, List.map_append, List.map_nil, hlines, hending]
  rfl

/-- The body of a comment is what is written for its tags. -/
theorem normalChars_render (h : ∀ t ∈ ts, Printable t) :
    normalChars (Text.joinWith ['\n'] (commentLines indents ending ts)) =
      Text.joinWith ['\n'] (ts.flatMap tagLines) := by
  simp only [normalChars, bodyLines_render h]
  by_cases hts : ts = []
  · subst hts
    rfl
  have hne := flatMap_tagLines_ne_nil hts
  obtain ⟨⟨rest, hrest⟩, hlast⟩ := ends_flatMap_tagLines hts h
  have htrim : Text.trimWith isMargin (Text.joinWith ['\n'] (ts.flatMap tagLines)) =
      Text.joinWith ['\n'] (ts.flatMap tagLines) := by
    refine Text.trimWith_eq_self_iff.mpr ⟨?_, hlast⟩
    rw [hrest, List.head?_cons]
    exact fun c hc => Option.some.inj hc ▸ rfl
  have hmargin : ∀ c ∈ ['\n'], isMargin c = true := List.forall_mem_singleton.mpr rfl
  have hbody : Text.trimWith isMargin
      (Text.joinWith ['\n'] ([[]] ++ (ts.flatMap tagLines ++ [[]]))) =
        Text.joinWith ['\n'] (ts.flatMap tagLines) := by
    rw [Text.joinWith_append _ (by simp) (by simp), Text.joinWith_append _ (by simp) hne]
    exact Text.trimWith_append htrim hmargin hmargin
  rw [hbody, hrest]
  rfl

end Layout

/-- Printable tags are read back as they were written, however their lines are indented. -/
theorem tags_render (indents : Nat → Indent) (ending : Indent) (ts : List Tag)
    (h : ∀ t ∈ ts, Printable t) : tags (some (render indents ending ts)) = ts := by
  have hbody : tagsOfBody (Text.joinWith ['\n'] (ts.flatMap tagLines)) = ts := by
    by_cases hts : ts = []
    · subst hts
      rfl
    rw [tagsOfBody, Text.splitOn_joinWith (flatMap_tagLines_ne_nil hts), foldr_flatMap_tagLines h]
    intro line hline
    obtain ⟨t, ht, hmem⟩ := List.mem_flatMap.mp hline
    exact ((h t ht).not_mem_tagLines hmem).1
  have hblank : ¬ (Text.trim (render indents ending ts).toList).isEmpty = true := by
    rw [List.isEmpty_iff, Text.trim, Text.trimWith_eq_nil_iff, render, String.toList_ofList]
    intro hall
    have hstar : '*' ∈ Text.joinWith ['\n'] (commentLines indents ending ts) :=
      Text.mem_joinWith_of_mem (List.mem_singleton_self '*') List.mem_cons_self
    exact absurd (hall '*' hstar) (by decide)
  rw [tags, if_neg hblank, render, String.toList_ofList, normalChars_render h, hbody]

/-- Tags whose values have lines that are empty, are indented, begin with a star or look much like
    the start of a tag. -/
def lookalikes : List Tag :=
  [⟨"@desc", "A shape.\n\n  * it has *stars*\n@ and\u3000@see.also"⟩, ⟨"@interface", ""⟩,
    ⟨"@param", "\x7bnumber\x7d x\n*\n@see: the width"⟩]

/-- They are read back, with one line after the other indented by one more blank. -/
theorem tags_render_lookalikes :
    (∀ t ∈ lookalikes, Printable t) ∧
      tags (some (render (fun i => ⟨List.replicate i ' ', by simp [isIndent]⟩)
        ⟨['\t'], List.forall_mem_singleton.mpr rfl⟩ lookalikes)) = lookalikes := by
  have hprintable : ∀ t ∈ lookalikes, Printable t := by
    simp only [lookalikes, List.forall_mem_cons]
    exact ⟨⟨⟨"desc".toList, by decide, List.all_eq_true.mp (by decide), rfl⟩, by decide +kernel,
        by decide +kernel, by decide +kernel, by decide +kernel⟩,
      ⟨⟨"interface".toList, by decide, List.all_eq_true.mp (by decide), rfl⟩, by decide +kernel,
        by decide +kernel, by decide +kernel, by decide +kernel⟩,
      ⟨⟨"param".toList, by decide, List.all_eq_true.mp (by decide), rfl⟩, by decide +kernel,
        by decide +kernel, by decide +kernel, by decide +kernel⟩,
      List.forall_mem_nil _⟩
  exact ⟨hprintable, tags_render _ _ lookalikes hprintable⟩

end DocGraph.Comment
