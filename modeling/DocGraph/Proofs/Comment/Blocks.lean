import DocGraph.Proofs.Comment.RoundTrip

/-! Which lines of a comment make up which tag.

    The lines of a comment's body fall into blocks, behind some that start no tag: a block is a line
    that starts a tag with the lines up to the next such line (`Block`). Each block gives one tag,
    in order, and its value is put together from the block's own lines (`ReadAs`). The
    placeholder that stands in for a missing text on the way is told from the text around it, since
    taking off the decoration makes no placeholder that was not written. -/

namespace DocGraph.Comment

/-! ### Blocks -/

/-- The lines of one tag: its name, with what stands behind it on its line, and the lines up to the
    next tag. -/
structure Block where
  word : List Char
  /-- Nothing, or a blank or a tab and any text. -/
  rest : List Char
  more : List (List Char)
  word_ne_nil : word ≠ []
  isWord : ∀ c ∈ word, Text.isWord c = true
  separated : ∀ c ∈ rest.head?, isIndent c = true
  further : ∀ line ∈ more, ¬ StartsTag line

namespace Block

/-- The line that starts the tag. -/
def start (b : Block) : List Char := '@' :: b.word ++ b.rest

/-- All lines of the tag. -/
def lines (b : Block) : List (List Char) := b.start :: b.more

/-- The tag: its value is what stands behind the separator and on the further lines. -/
def tag (b : Block) : Tag where
  name := String.ofList ('@' :: b.word)
  value := String.ofList (Text.trim (Text.joinWith ['\n'] (b.rest.tail :: b.more)))

theorem startsTag_start (b : Block) : StartsTag b.start :=
  ⟨b.word, b.rest, b.word_ne_nil, b.isWord, rfl, b.separated⟩

theorem tagStart?_start (b : Block) :
    tagStart? b.start = some ('@' :: b.word, b.rest.tail?) :=
  tagStart?_word b.word_ne_nil b.isWord b.separated

/-- The line tells the name of the tag. -/
theorem word_eq_of_start {a b : Block} (h : a.start = b.start) : a.word = b.word := by
  have hread := a.tagStart?_start
  rw [h, b.tagStart?_start, Option.some.injEq, Prod.mk.injEq] at hread
  exact (List.cons.inj hread.1).2.symm

end Block

/-- Lines fall into blocks, behind some that start no tag. -/
theorem exists_blocks : ∀ lines : List (List Char), ∃ dropped : List (List Char),
    ∃ blocks : List Block, lines = dropped ++ blocks.flatMap Block.lines ∧
      ∀ line ∈ dropped, ¬ StartsTag line
  | [] => ⟨[], [], rfl, List.forall_mem_nil _⟩
  | line :: lines => by
    obtain ⟨dropped, blocks, rfl, hdropped⟩ := exists_blocks lines
    by_cases hline : StartsTag line
    · -- the lines that had no tag so far belong to this one
      obtain ⟨word, rest, hne, hword, rfl, hrest⟩ := hline
      exact ⟨[], ⟨word, rest, dropped, hne, hword, hrest, hdropped⟩ :: blocks, rfl,
        List.forall_mem_nil _⟩
    · exact ⟨line :: dropped, blocks, rfl, List.forall_mem_cons.mpr ⟨hline, hdropped⟩⟩

theorem filter_startsTag {dropped : List (List Char)} {blocks : List Block}
    (hdropped : ∀ line ∈ dropped, ¬ StartsTag line) :
    (dropped ++ blocks.flatMap Block.lines).filter (fun line => decide (StartsTag line)) =
      blocks.map Block.start := by
  have hblock : ∀ b : Block, b.lines.filter (fun line => decide (StartsTag line)) = [b.start] := by
    intro b
    have hfurther : b.more.filter (fun line => decide (StartsTag line)) = [] :=
      List.filter_eq_nil_iff.mpr fun line hline => by simpa using b.further line hline
    rw [Block.lines, List.filter_cons_of_pos (by simpa using b.startsTag_start), hfurther]
  have hnone : dropped.filter (fun line => decide (StartsTag line)) = [] :=
    List.filter_eq_nil_iff.mpr fun line hline => by simpa using hdropped line hline
  rw [List.filter_append, hnone, List.nil_append, List.filter_flatMap]
  simp only [hblock]
  exact List.map_eq_flatMap.symm

/-! ### Tags of blocks -/

theorem placeholder_ne_nil : placeholder ≠ [] := by decide

theorem not_mem_placeholder : '\n' ∉ placeholder := by decide

/-- Lines without a placeholder have none when they are joined. -/
theorem not_placeholder_joinWith {lines : List (List Char)}
    (h : ∀ line ∈ lines, ¬ placeholder <:+: line) :
    ¬ placeholder <:+: Text.joinWith ['\n'] lines := by
  intro hjoined
  obtain ⟨line, hline, hpart⟩ :=
    Text.exists_infix_of_infix_joinWith placeholder_ne_nil not_mem_placeholder hjoined
  exact h line hline hpart

namespace Block

variable {b : Block}

/-- The tag that is built from the lines of a block: the placeholder leaves nothing behind. -/
theorem buildTag_eq (hfree : ∀ line ∈ b.lines, ¬ placeholder <:+: line) :
    buildTag ('@' :: b.word) b.rest.tail? b.more = b.tag := by
  obtain ⟨hstart, hmore⟩ := List.forall_mem_cons.mp hfree
  have hlines : Text.eraseFirst placeholder
      (Text.joinWith ['\n'] (b.rest.tail?.getD placeholder :: b.more)) =
        Text.joinWith ['\n'] (b.rest.tail :: b.more) := by
    cases hrest : b.rest with
    | nil =>
      have hjoined := Text.joinWith_cons_append ['\n'] placeholder [] b.more
      rw [List.append_nil] at hjoined
      simp only [List.tail?_nil, Option.getD_none, List.tail_nil, hjoined, Text.eraseFirst_append]
    | cons c text =>
      have htext : ¬ placeholder <:+: text := fun hpart => hstart <| hpart.trans <| by
        rw [start, hrest]
        exact (List.suffix_append_of_suffix (List.suffix_cons c text)).isInfix
      exact Text.eraseFirst_of_not_infix
        (not_placeholder_joinWith (List.forall_mem_cons.mpr ⟨htext, hmore⟩))
  simp only [buildTag, hlines]
  rfl

/-- The lines of a block, put together, are its tag. -/
theorem foldr_lines (hfree : ∀ line ∈ b.lines, ¬ placeholder <:+: line) (ts : List Tag) :
    b.lines.foldr gather ([], ts) = ([], b.tag :: ts) := by
  rw [lines, List.foldr_cons, foldr_gather_of_not_startsTag b.further, gather, b.tagStart?_start]
  simp only [buildTag_eq hfree]

end Block

/-- Lines that fall into blocks are read as the tags of these. -/
theorem foldr_blocks {dropped : List (List Char)} (hdropped : ∀ line ∈ dropped, ¬ StartsTag line) :
    ∀ {blocks : List Block}, (∀ b ∈ blocks, ∀ line ∈ b.lines, ¬ placeholder <:+: line) →
      ((dropped ++ blocks.flatMap Block.lines).foldr gather ([], [])).2 = blocks.map Block.tag := by
  intro blocks hfree
  have hblocks : (blocks.flatMap Block.lines).foldr gather ([], []) =
      ([], blocks.map Block.tag) := by
    induction blocks with
    | nil => rfl
    | cons b blocks ih =>
      obtain ⟨hb, hrest⟩ := List.forall_mem_cons.mp hfree
      rw [List.flatMap_cons, List.foldr_append, ih hrest, b.foldr_lines hb, List.map_cons]
  rw [List.foldr_append, hblocks, foldr_gather_of_not_startsTag hdropped]

/-! ### The body of a comment -/

/-- The text of a comment without its decoration. -/
def plainBody (comment : List Char) : List Char :=
  Text.trimWith isMargin (Text.joinWith ['\n'] (bodyLines comment))

/-- The body begins with a tag: its own, or that of a description. -/
theorem normalChars_cases (comment : List Char) :
    plainBody comment = [] ∧ normalChars comment = [] ∨
      (∃ rest, plainBody comment = '@' :: rest) ∧ normalChars comment = plainBody comment ∨
      (∃ c rest, plainBody comment = c :: rest ∧ c ≠ '@') ∧
        normalChars comment = descriptionTag.toList ++ ' ' :: plainBody comment := by
  cases hbody : plainBody comment with
  | nil =>
    refine Or.inl ⟨rfl, ?_⟩
    rw [plainBody] at hbody
    simp only [normalChars, hbody]
  | cons c rest =>
    have hnormal : normalChars comment =
        if c = '@' then c :: rest else descriptionTag.toList ++ ' ' :: c :: rest := by
      rw [plainBody] at hbody
      simp only [normalChars, hbody]
    rw [hnormal]
    by_cases hc : c = '@'
    · exact Or.inr (Or.inl ⟨⟨rest, by rw [hc]⟩, if_pos hc⟩)
    · exact Or.inr (Or.inr ⟨⟨c, rest, rfl, hc⟩, if_neg hc⟩)

theorem dropStar_suffix (line : List Char) : dropStar line <:+ line := by
  fun_cases dropStar line with
  | case1 c rest hc => exact (List.suffix_cons c rest).trans (List.suffix_cons '*' _)
  | case2 c rest hc => exact List.suffix_cons '*' _
  | case3 => exact List.nil_suffix
  | case4 => exact List.suffix_rfl

/-- The lines of the body are the ends of lines of the comment. -/
theorem exists_of_mem_bodyLines {comment line : List Char} (h : line ∈ bodyLines comment) :
    ∃ whole ∈ Text.splitOn '\n' (Text.unifyBreaks comment), line <:+ whole := by
  rw [bodyLines] at h
  split at h
  · exact absurd h List.not_mem_nil
  · next first rest hlines =>
    have hends : ∀ cut ∈ first :: rest, ∃ whole ∈ Text.splitOn '\n' (Text.unifyBreaks comment),
        cut <:+ whole := by
      rw [← hlines]
      intro cut hcut
      obtain ⟨whole, hwhole, rfl⟩ := List.mem_map.mp hcut
      exact ⟨whole, hwhole, List.dropWhile_suffix isIndent⟩
    obtain ⟨cut, hcut, rfl⟩ := List.mem_map.mp h
    rcases List.mem_cons.mp hcut with rfl | hrest
    · obtain ⟨whole, hwhole, hend⟩ := hends first List.mem_cons_self
      exact ⟨whole, hwhole, (dropStar_suffix _).trans ((dropStar_suffix first).trans hend)⟩
    · obtain ⟨whole, hwhole, hend⟩ := hends cut (List.mem_cons_of_mem _ hrest)
      exact ⟨whole, hwhole, (dropStar_suffix cut).trans hend⟩

/-- Taking off the decoration makes no placeholder. -/
theorem not_placeholder_normalChars {comment : List Char} (h : ¬ placeholder <:+: comment) :
    ¬ placeholder <:+: normalChars comment := by
  have hlines : ∀ line ∈ bodyLines comment, ¬ placeholder <:+: line := by
    intro line hline hpart
    obtain ⟨whole, hwhole, hend⟩ := exists_of_mem_bodyLines hline
    refine h (Text.infix_of_infix_unifyBreaks not_mem_placeholder ?_)
    exact (hpart.trans hend.isInfix).trans (Text.infix_of_mem_splitOn hwhole)
  have hbody : ¬ placeholder <:+: plainBody comment := fun hpart =>
    not_placeholder_joinWith hlines (hpart.trans (Text.trimWith_isInfix _ _))
  rcases normalChars_cases comment with ⟨_, hnormal⟩ | ⟨_, hnormal⟩ | ⟨_, hnormal⟩
  · rw [hnormal]
    decide
  · rwa [hnormal]
  · -- the placeholder has no blank, so it would lie before the one behind the name or after it
    rw [hnormal]
    intro hpart
    rcases Text.infix_append_cons (by decide) hpart with hname | hrest
    · exact absurd hname (by decide)
    · exact hbody hrest

/-! ### Whole comments -/

/-- The lines of a comment's body. -/
def linesOf (comment : String) : List (List Char) :=
  Text.splitOn '\n' (normalise comment).toList

theorem toList_normalise (comment : String) :
    (normalise comment).toList = normalChars comment.toList :=
  String.toList_ofList

theorem not_placeholder_of_mem_linesOf {comment : String} {line : List Char}
    (hfree : ¬ placeholder <:+: comment.toList) (hline : line ∈ linesOf comment) :
    ¬ placeholder <:+: line := by
  rw [linesOf, toList_normalise] at hline
  exact fun hpart =>
    not_placeholder_normalChars hfree (hpart.trans (Text.infix_of_mem_splitOn hline))

/-- The tags of a comment are put together from its lines. -/
theorem tags_eq_foldr {comment : String}
    (hfilled : ¬ ∀ c ∈ comment.toList, Text.isBlank c = true) :
    tags (some comment) = ((linesOf comment).foldr gather ([], [])).2 := by
  have hsome : ¬ (Text.trim comment.toList).isEmpty = true := by
    rwa [List.isEmpty_iff, Text.trim, Text.trimWith_eq_nil_iff]
  rw [tags, if_neg hsome, tagsOfBody, linesOf, toList_normalise]

/-- The line that a description begins with, as a block. -/
def described (text : List Char) : Block where
  word := ['d', 'e', 's', 'c']
  rest := ' ' :: text
  more := []
  word_ne_nil := List.cons_ne_nil _ _
  isWord := List.all_eq_true.mp (by decide)
  separated := by
    rintro c ⟨⟩
    rfl
  further := List.forall_mem_nil _

theorem start_described (text : List Char) :
    (described text).start = descriptionTag.toList ++ ' ' :: text := rfl

/-- The first line of a description starts its tag. -/
theorem head?_linesOf_of_description {comment : String} {c : Char} {rest : List Char}
    (hbody : plainBody comment.toList = c :: rest) (hc : c ≠ '@') :
    ∃ text, (linesOf comment).head? = some (described text).start := by
  have hnormal : normalChars comment.toList =
      (descriptionTag.toList ++ [' ']) ++ plainBody comment.toList := by
    rcases normalChars_cases comment.toList with ⟨hnil, _⟩ | ⟨⟨_, hat⟩, _⟩ | ⟨_, hnormal⟩
    · rw [hbody] at hnil
      exact absurd hnil (List.cons_ne_nil _ _)
    · rw [hbody] at hat
      exact absurd (List.cons.inj hat).1 hc
    · rw [hnormal, List.append_assoc]
      rfl
  obtain ⟨first, more, hsplit⟩ :=
    List.exists_cons_of_ne_nil (Text.splitOn_ne_nil '\n' (plainBody comment.toList))
  refine ⟨first, ?_⟩
  rw [linesOf, toList_normalise, hnormal, Text.splitOn_append_of_not_mem hsplit (by decide),
    List.head?_cons, List.append_assoc, start_described]
  rfl

/-- The tags of a comment are those of the blocks, and the blocks are its lines but for some that
    are dropped. -/
structure ReadAs (comment : String) (dropped : List (List Char)) (blocks : List Block) : Prop where
  /-- No line is lost or used twice. -/
  lines_eq : linesOf comment = dropped ++ blocks.flatMap Block.lines
  tags_eq : tags (some comment) = blocks.map Block.tag
  /-- There is one block for each line that starts a tag. -/
  starts_eq : (linesOf comment).filter (fun line => decide (StartsTag line)) =
    blocks.map Block.start
  /-- Lines are dropped only if there is no body, or it begins with what looks like a tag and is not
      the start of one. -/
  dropped_only : dropped ≠ [] → normalise comment = "" ∨
    (normalise comment).toList.head? = some '@' ∧
      ∀ line ∈ (linesOf comment).head?, ¬ StartsTag line
  first_covered : dropped = [] → (linesOf comment).head? = blocks.head?.map Block.start
  /-- A body that does not begin like a tag is a description. -/
  description : ∀ c rest, plainBody comment.toList = c :: rest → c ≠ '@' →
    dropped = [] ∧ blocks.head?.map (fun b => b.tag.name) = some descriptionTag

/-- A comment that is not all white space, and has no placeholder in it, is read in blocks. -/
theorem exists_readAs (comment : String) (hfree : ¬ placeholder <:+: comment.toList)
    (hfilled : ¬ ∀ c ∈ comment.toList, Text.isBlank c = true) :
    ∃ dropped : List (List Char), ∃ blocks : List Block, ReadAs comment dropped blocks := by
  obtain ⟨dropped, blocks, hlines, hdropped⟩ := exists_blocks (linesOf comment)
  have htags : tags (some comment) = blocks.map Block.tag := by
    rw [tags_eq_foldr hfilled, hlines]
    refine foldr_blocks hdropped fun b hb line hline => not_placeholder_of_mem_linesOf hfree ?_
    rw [hlines]
    exact List.mem_append_right _ (List.mem_flatMap.mpr ⟨b, hb, hline⟩)
  have hstarts : (linesOf comment).filter (fun line => decide (StartsTag line)) =
      blocks.map Block.start := by
    rw [hlines]
    exact filter_startsTag hdropped
  have hfirst : dropped = [] → (linesOf comment).head? = blocks.head?.map Block.start := by
    rintro rfl
    rw [hlines, List.nil_append]
    cases blocks <;> rfl
  have hunstarted : dropped ≠ [] → ∀ line ∈ (linesOf comment).head?, ¬ StartsTag line := by
    intro hne line hline
    obtain ⟨first, more, hcons⟩ := List.exists_cons_of_ne_nil hne
    rw [hlines, hcons, List.cons_append, List.head?_cons, Option.mem_some_iff] at hline
    exact hdropped line (by rw [hcons, hline]; exact List.mem_cons_self)
  have hdescribed : ∀ c rest, plainBody comment.toList = c :: rest → c ≠ '@' → dropped = [] ∧
      blocks.head?.map (fun b => b.tag.name) = some descriptionTag := by
    intro c rest hbody hc
    obtain ⟨text, hhead⟩ := head?_linesOf_of_description hbody hc
    have hnone : dropped = [] := by
      by_contra hne
      exact hunstarted hne _ hhead (described text).startsTag_start
    refine ⟨hnone, ?_⟩
    obtain ⟨b, hb, hstart⟩ := Option.map_eq_some_iff.mp ((hfirst hnone).symm.trans hhead)
    rw [hb, Option.map_some, Block.tag, Block.word_eq_of_start hstart]
    rfl
  refine ⟨dropped, blocks, hlines, htags, hstarts, fun hne => ?_, hfirst, hdescribed⟩
  rcases normalChars_cases comment.toList with ⟨_, hnil⟩ | ⟨⟨rest, hat⟩, hbody⟩ |
    ⟨⟨c, rest, hbody, hc⟩, _⟩
  · exact Or.inl (String.toList_eq_nil_iff.mp ((toList_normalise comment).trans hnil))
  · exact Or.inr ⟨by rw [toList_normalise, hbody, hat, List.head?_cons], hunstarted hne⟩
  · exact absurd (hdescribed c rest hbody hc).1 hne

/-- A comment with a description, a tag without a text, one whose text has two lines and a line
    that only looks like a tag. -/
theorem exists_readAs_circle :
    (¬ placeholder <:+: "*\n * A circle.\n * @interface\n * @see Shape\n * @ area\n ".toList) ∧
      ∃ dropped : List (List Char), ∃ blocks : List Block,
        ReadAs "*\n * A circle.\n * @interface\n * @see Shape\n * @ area\n " dropped blocks :=
  have hfree : ¬ placeholder <:+:
      "*\n * A circle.\n * @interface\n * @see Shape\n * @ area\n ".toList := by decide +kernel
  ⟨hfree, exists_readAs _ hfree fun hblank => absurd (hblank '*' (by decide)) (by decide)⟩

/-- A comment of white space alone is read as no tag, though its body, in which the line break is
    not one that is taken off, begins with the tag of a description. -/
theorem not_readAs_return : (¬ placeholder <:+: "\r".toList) ∧
    ¬ ∃ dropped : List (List Char), ∃ blocks : List Block, ReadAs "\r" dropped blocks := by
  refine ⟨by decide, ?_⟩
  rintro ⟨dropped, blocks, hread⟩
  have hnone : blocks = [] := List.map_eq_nil_iff.mp (hread.tags_eq.symm.trans (by decide +kernel))
  have hstarts := hread.starts_eq
  rw [hnone, List.map_nil] at hstarts
  exact absurd hstarts (by decide +kernel)

/-- A comment of one star is not white space alone. It has an empty body, whose one line is dropped
    although it does not begin like a tag. -/
theorem readAs_star : (¬ placeholder <:+: "*".toList) ∧
    (¬ ∀ c ∈ "*".toList, Text.isBlank c = true) ∧ (normalise "*").toList.head? ≠ some '@' ∧
    ∀ dropped blocks, ReadAs "*" dropped blocks ↔ dropped = [[]] ∧ blocks = [] := by
  have hfilled : ¬ ∀ c ∈ "*".toList, Text.isBlank c = true := fun hblank =>
    absurd (hblank '*' (by decide)) (by decide)
  refine ⟨by decide, hfilled, by decide +kernel, fun dropped blocks => ⟨fun hread => ?_, ?_⟩⟩
  · have hnone : blocks = [] :=
      List.map_eq_nil_iff.mp (hread.tags_eq.symm.trans (by decide +kernel))
    have hlines := hread.lines_eq
    rw [hnone, List.flatMap_nil, List.append_nil] at hlines
    exact ⟨hlines.symm.trans (by decide +kernel), hnone⟩
  · rintro ⟨rfl, rfl⟩
    have hbody : plainBody "*".toList = [] := by decide +kernel
    exact
      { lines_eq := by decide +kernel
        tags_eq := by decide +kernel
        starts_eq := by decide +kernel
        dropped_only := fun _ => .inl (by decide +kernel)
        first_covered := fun hnone => absurd hnone (by decide)
        description := fun _ _ hcons =>
          absurd (hbody.symm.trans hcons) (List.cons_ne_nil _ _).symm }

end DocGraph.Comment
