import DocGraph.Descriptor.Refine
import DocGraph.Proofs.Literal.RoundTrip

/-! Writing a descriptor as a tag value, and reading it back.

    A tag value is written as a type in braces, a name, a dash and a description. The name is a bare
    word, or stands in brackets with its default. Each clause is cut off at a place that depends on
    what is left, so each lemma here says that a clause is cut where it ends, whatever comes after
    it. `parse_written` puts them together: no brace in the type, no bracket or equals sign in the
    default and no dash in the description leads a cut astray. -/

namespace DocGraph.Descriptor

/-! ### Writing -/

/-- A tag value with a type, a name and a description. -/
def written (type name description : String) : String :=
  "\x7b" ++ type ++ "\x7d " ++ name ++ " - " ++ description

/-- The name of something optional with its default. -/
def writtenOptional (name default : String) : String := "[" ++ name ++ "=" ++ default ++ "]"

/-- A type text that is taken for a type, up to its own end: it has no `@`, and none of its closing
    braces stands before white space. -/
structure TypeText (cs : List Char) : Prop where
  noAt : '@' ∉ cs
  closed : ∀ c ∈ cs, ['\x7d', c] <:+: cs → Text.isBlank c = false

/-- A name that is one word and does not open a bracket. -/
structure BareName (cs : List Char) : Prop where
  nonempty : cs ≠ []
  word : ∀ c ∈ cs, Text.isBlank c = false
  noBracket : cs.head? ≠ some '['

/-- A name that can have a default in brackets. -/
structure InnerName (cs : List Char) : Prop where
  nonempty : cs ≠ []
  trimmed : Text.trim cs = cs
  noEquals : '=' ∉ cs
  noOpening : '[' ∉ cs
  noClosing : ']' ∉ cs

/-- A text whose square brackets match. -/
inductive Balanced : List Char → Prop
  | nil : Balanced []
  | cons {c : Char} {cs : List Char} (hopen : c ≠ '[') (hclose : c ≠ ']') (h : Balanced cs) :
      Balanced (c :: cs)
  | bracket {inner cs : List Char} (hinner : Balanced inner) (h : Balanced cs) :
      Balanced ('[' :: (inner ++ ']' :: cs))

/-! ### The type -/

theorem TypeText.of_cons {c : Char} {cs : List Char} (h : TypeText (c :: cs)) : TypeText cs where
  noAt := fun hmem => h.noAt (List.mem_cons_of_mem c hmem)
  closed := fun d hd hinfix =>
    h.closed d (List.mem_cons_of_mem c hd) (List.infix_cons hinfix)

/-- A type text ends at the brace that was written behind it. -/
theorem typeTail_append {rest : List Char} (hrest : atBoundary rest = true) : ∀ {cs : List Char},
    TypeText cs → typeTail (cs ++ '\x7d' :: rest) = some (cs, rest.dropWhile Text.isBlank)
  | [], _ => by simp [typeTail, hrest]
  | c :: cs, h => by
    have hat : c ≠ '@' := fun he => h.noAt (he ▸ List.mem_cons_self)
    have hhere : ¬ (c = '\x7d' && atBoundary (cs ++ '\x7d' :: rest)) = true := by
      rw [Bool.and_eq_true, decide_eq_true_iff]
      rintro ⟨rfl, hboundary⟩
      cases cs with
      | nil =>
        have hblank : Text.isBlank '\x7d' = true := hboundary
        exact absurd hblank (by decide)
      | cons d after =>
        have hblank : Text.isBlank d = false := h.closed d (by simp) ⟨[], after, rfl⟩
        exact absurd (hblank.symm.trans hboundary) Bool.false_ne_true
    rw [List.cons_append, typeTail, if_neg hhere, if_neg hat, typeTail_append hrest h.of_cons]
    rfl

/-! ### The name -/

/-- A balanced text inside brackets is passed over. -/
theorem bracketTail_append {cs : List Char} (h : Balanced cs) :
    ∀ {depth : Int}, 0 < depth → ∀ rest : List Char,
      bracketTail depth (cs ++ rest) = (bracketTail depth rest).map fun r => (cs ++ r.1, r.2) := by
  induction h with
  | nil =>
    intro depth _ rest
    simp
  | cons hopen hclose _ ih =>
    intro depth hdepth rest
    have hne : depth ≠ 0 := by omega
    simp [bracketTail, hopen, hclose, hne, ih hdepth, Function.comp_def]
  | bracket _ _ ihinner ih =>
    intro depth hdepth rest
    have hne : depth ≠ 0 := by omega
    have hdeeper : depth + 1 ≠ 0 := by omega
    have hback : depth + 1 - 1 = depth := by omega
    rw [List.cons_append, List.append_assoc, List.cons_append, bracketTail]
    simp [hdeeper, ihinner (show 0 < depth + 1 by omega), bracketTail, hback, hne, ih hdepth,
      Function.comp_def]

theorem Balanced.append_of_not_mem {cs : List Char} (h : Balanced cs) : ∀ {front : List Char},
    '[' ∉ front → ']' ∉ front → Balanced (front ++ cs)
  | [], _, _ => h
  | c :: front, ho, hc => by
    simp only [List.mem_cons, not_or] at ho hc
    exact .cons (Ne.symm ho.1) (Ne.symm hc.1) (h.append_of_not_mem ho.2 hc.2)

theorem bracketTail_bracketed {inner : List Char} (h : Balanced inner) (rest : List Char) :
    bracketTail 0 ('[' :: (inner ++ ']' :: rest)) = some ('[' :: (inner ++ [']']), rest) := by
  simp [bracketTail, bracketTail_append h Int.one_pos]

/-! ### The description -/

theorem isBlank_of_mem_space : ∀ c ∈ [' '], Text.isBlank c = true :=
  List.forall_mem_singleton.mpr rfl

theorem trim_space_cons {cs : List Char} (h : Text.trim cs = cs) : Text.trim (' ' :: cs) = cs := by
  simpa [Text.trim] using Text.trimWith_append h isBlank_of_mem_space (List.forall_mem_nil _)

/-- What is left behind the dash: a description, or nothing. -/
def behind (description : List Char) : List Char :=
  if description = [] then [] else ' ' :: description

section Behind

variable {front description : List Char}

theorem atBoundary_behind (description : List Char) : atBoundary (behind description) = true := by
  rw [behind]
  split
  · rfl
  · rfl

theorem trim_behind (h : Text.trim description = description) :
    Text.trim (behind description) = description := by
  rw [behind]
  split
  · next hempty => rw [hempty]; rfl
  · exact trim_space_cons h

/-- A text stays trimmed with a description behind it. -/
theorem trim_append_behind (hfront : Text.trim front = front) (hne : front ≠ [])
    (h : Text.trim description = description) :
    Text.trim (front ++ behind description) = front ++ behind description := by
  obtain ⟨hfirst, hlast⟩ := Text.trimWith_eq_self_iff.mp hfront
  refine Text.trimWith_eq_self_iff.mpr ⟨?_, ?_⟩
  · rwa [List.head?_append_of_ne_nil _ hne]
  · rw [behind]
    split
    · rwa [List.append_nil]
    · next hd =>
      rw [List.getLast?_append_of_ne_nil _ (List.cons_ne_nil _ _), List.getLast?_cons_of_ne_nil hd]
      exact (Text.trimWith_eq_self_iff.mp h).2

/-- Trimming takes the blank behind the dash away if no description follows it. -/
theorem trim_append_blank (hfront : Text.trim front = front) (hne : front ≠ [])
    (h : Text.trim description = description) :
    Text.trim (front ++ ' ' :: description) = front ++ behind description := by
  by_cases hd : description = []
  · have htrim := Text.trimWith_append hfront (List.forall_mem_nil _) isBlank_of_mem_space
    simpa [Text.trim, hd, behind] using htrim
  · have hself := trim_append_behind hfront hne h
    rwa [behind, if_neg hd] at hself ⊢

end Behind

theorem descriptionClause_behind {description : List Char}
    (h : Text.trim description = description) :
    descriptionClause ('-' :: behind description) = description := by
  rw [descriptionClause, if_pos (atBoundary_behind description), trim_behind h]

/-! ### All clauses -/

/-- The name clause is a name, whatever value it stands in: what is cut off in front of a dash is
    the name. -/
def CutAs (name : List Char) : Prop :=
  ∀ value description, Text.trim description = description →
    nameClause value (name ++ ' ' :: '-' :: behind description) =
      .ok (name, '-' :: behind description)

theorem BareName.cutAs {name : List Char} (h : BareName name) : CutAs name := by
  intro value description _
  have hword : ∀ c ∈ name, (!Text.isBlank c) = true := fun c hc => by rw [h.word c hc]; rfl
  have hstop : ∀ c ∈ (' ' :: '-' :: behind description).head?, (!Text.isBlank c) = false := by
    simp only [List.head?_cons, Option.mem_some_iff, forall_eq']
    decide
  rw [nameClause]
  · simp only [Text.takeWhile_append_of_stop hword hstop, Text.dropWhile_append_of_stop hword hstop]
    rw [if_neg (by simpa using h.nonempty)]
    rfl
  · rintro rest he
    obtain ⟨c, cs, rfl⟩ := List.exists_cons_of_ne_nil h.nonempty
    exact h.noBracket (congrArg some (List.cons.inj he).1)

theorem cutAs_bracketed {inner : List Char} (h : Balanced inner) :
    CutAs ('[' :: (inner ++ [']'])) := by
  intro value description hdescription
  have hself : Text.trim (['-'] ++ behind description) = ['-'] ++ behind description :=
    trim_append_behind (by decide) (by decide) hdescription
  have hafter : Text.trim (' ' :: '-' :: behind description) = '-' :: behind description :=
    trim_space_cons hself
  have hcut := bracketTail_bracketed h (' ' :: '-' :: behind description)
  rw [show '[' :: (inner ++ [']']) ++ ' ' :: '-' :: behind description =
    '[' :: (inner ++ ']' :: ' ' :: '-' :: behind description) by simp]
  simp only [nameClause, hcut, hafter]

/-- A written value without white space at its ends, as the clauses are cut off it. -/
theorem trim_written (type name : String) {description : String}
    (h : Text.trim description.toList = description.toList) :
    Text.trim (written type name description).toList =
      '\x7b' :: (type.toList ++ '\x7d' :: ' ' :: (name.toList ++ ' ' :: '-' ::
        behind description.toList)) := by
  let front := '\x7b' :: (type.toList ++ '\x7d' :: ' ' :: (name.toList ++ [' ', '-']))
  have hfront : Text.trim front = front := by
    refine Text.trimWith_eq_self_iff.mpr ⟨?_, ?_⟩
    · simp only [front, List.head?_cons, Option.mem_some_iff, forall_eq']
      decide
    · simp only [front, List.getLast?_cons, List.getLast?_append, Option.getD_some, Option.some_or,
        List.getLast?_nil, Option.getD_none, Option.mem_some_iff, forall_eq']
      decide
  have htrim := trim_append_blank hfront (List.cons_ne_nil _ _) h
  simpa [front, written] using htrim

theorem splitType_written {type rest : List Char} (htype : TypeText type)
    (hrest : ∀ c ∈ rest.head?, Text.isBlank c = false) :
    splitType ('\x7b' :: (type ++ '\x7d' :: ' ' :: rest)) = (String.ofList type, rest) := by
  have hdrop : (' ' :: rest).dropWhile Text.isBlank = rest :=
    Text.dropWhile_append_of_stop isBlank_of_mem_space hrest
  have hend : atBoundary (' ' :: rest) = true := rfl
  rw [splitType, typeClause?, typeTail_append hend htype, hdrop]

/-- The clauses of a written value are cut off one after the other. -/
theorem split_written {type name description : String} (htype : TypeText type.toList)
    (hname : CutAs name.toList) (hne : name.toList ≠ [])
    (hfirst : ∀ c ∈ name.toList.head?, Text.isBlank c = false)
    (hdescription : Text.trimmed description = description) :
    split .all (written type name description) =
      .ok ⟨some type, some name, some description⟩ := by
  have htrim := Text.trim_toList hdescription
  have hstop : ∀ c ∈ (name.toList ++ ' ' :: '-' :: behind description.toList).head?,
      Text.isBlank c = false := by
    rwa [List.head?_append_of_ne_nil _ hne]
  simp only [split, Wanted.all, trim_written _ _ htrim, splitType_written htype hstop,
    hname _ _ htrim, descriptionClause_behind htrim, String.ofList_toList, if_true]

/-! ### The descriptor -/

section Optional

variable {name default : String}

theorem toList_writtenOptional (name default : String) :
    (writtenOptional name default).toList =
      '[' :: ((name.toList ++ '=' :: default.toList) ++ [']']) := by
  simp [writtenOptional]

theorem InnerName.cutAs (hname : InnerName name.toList) (hdefault : Balanced default.toList) :
    CutAs (writtenOptional name default).toList := by
  rw [toList_writtenOptional]
  have hrest : Balanced ('=' :: default.toList) := .cons (by decide) (by decide) hdefault
  exact cutAs_bracketed (hrest.append_of_not_mem hname.noOpening hname.noClosing)

theorem dropBrackets_bracketed (left right : Char) (inner : List Char) :
    dropBrackets left right (left :: (inner ++ [right])) = inner := by
  simp [dropBrackets]

/-- A name with a default in brackets is optional, and its default is the value that the text
    spells. -/
theorem subjectOf_writtenOptional [CharacterNames] (hname : InnerName name.toList)
    (hdefault : Text.trim default.toList = default.toList) :
    subjectOf (writtenOptional name default).toList =
      ((Literal.read default).map fun v => ⟨name, true, some ⟨default, v⟩⟩).mapError
        fun _ => .overflow := by
  rw [toList_writtenOptional]
  simp only [subjectOf, List.head?_cons, BEq.rfl, if_true, dropBrackets_bracketed,
    Text.cut_append hname.noEquals, hname.trimmed, hdefault, String.ofList_toList]
  cases Literal.read default with
  | ok v => rfl
  | error e => rfl

section Parse

variable {type description : String} (htype : TypeText type.toList) (hname : InnerName name.toList)
  (hdefault : Text.trimmed default = default) (hbalanced : Balanced default.toList)
  (hdescription : Text.trimmed description = description)

include htype hname hbalanced hdescription

theorem split_writtenOptional :
    split .all (written type (writtenOptional name default) description) =
      .ok ⟨some type, some (writtenOptional name default), some description⟩ := by
  have hlist := toList_writtenOptional name default
  refine split_written htype (hname.cutAs hbalanced) ?_ ?_ hdescription
  · rw [hlist]
    exact List.cons_ne_nil _ _
  · rw [hlist]
    simp only [List.head?_cons, Option.mem_some_iff, forall_eq']
    decide

include hdefault

theorem parse_writtenOptional [CharacterNames] (hwhole : [] ∉ (typePart (some type)).1) :
    parse .all (written type (writtenOptional name default) description) =
      ((Literal.read default).map fun value =>
        { types := (typePart (some type)).1.map String.ofList
          nullable := (typePart (some type)).2.1
          spread := (typePart (some type)).2.2
          subject := some ⟨name, true, some ⟨default, value⟩⟩
          description := some description }).mapError fun _ => .overflow := by
  have hany : ¬ (typePart (some type)).1.any List.isEmpty = true := by
    simpa using hwhole
  have hne : ¬ (writtenOptional name default).isEmpty = true := by
    rw [String.isEmpty_iff, ← String.toList_eq_nil_iff, toList_writtenOptional]
    exact List.cons_ne_nil _ _
  simp only [parse, split_writtenOptional htype hname hbalanced hdescription, refine, if_neg hany,
    if_neg hne, subjectOf_writtenOptional hname (Text.trim_toList hdefault)]
  cases Literal.read default with
  | ok value => rfl
  | error e => rfl

end Parse

end Optional

/-- The type, the name and the description of a written value are the ones that were written. With
    a default, the descriptor has them too, and the default is the value that its text spells; only
    where reading that text meets a number that is too large there is no descriptor. -/
theorem parse_written [CharacterNames] {type description : String} (htype : TypeText type.toList)
    (hdescription : Text.trimmed description = description) :
    (∀ name : String, BareName name.toList →
      split .all (written type name description) =
        .ok ⟨some type, some name, some description⟩) ∧
    ∀ name default : String, InnerName name.toList → Text.trimmed default = default →
      Balanced default.toList →
      split .all (written type (writtenOptional name default) description) =
        .ok ⟨some type, some (writtenOptional name default), some description⟩ ∧
      ([] ∉ (typePart (some type)).1 →
        (∀ value, Literal.read default = .ok value →
          parse .all (written type (writtenOptional name default) description) =
            .ok { types := (typePart (some type)).1.map String.ofList
                  nullable := (typePart (some type)).2.1
                  spread := (typePart (some type)).2.2
                  subject := some ⟨name, true, some ⟨default, value⟩⟩
                  description := some description }) ∧
        (Literal.read default = .error .integerTooLarge ↔
          parse .all (written type (writtenOptional name default) description) =
            .error .overflow)) := by
  refine ⟨fun name hname => ?_, fun name default hname hdefault hbalanced => ?_⟩
  · exact split_written htype hname.cutAs hname.nonempty
      (fun c hc => hname.word c (List.mem_of_mem_head? hc)) hdescription
  · refine ⟨split_writtenOptional htype hname hbalanced hdescription, fun hwhole => ?_⟩
    rw [parse_writtenOptional htype hname hdefault hbalanced hdescription hwhole]
    cases Literal.read default with
    | error e =>
      refine ⟨fun value h => ?_, iff_of_true rfl rfl⟩
      cases h
    | ok value =>
      refine ⟨fun value' h => ?_, iff_of_false (by simp) (by simp [Except.map, Except.mapError])⟩
      rw [Except.ok.inj h]
      rfl

/-- A type with a record in it, a default with brackets and an equals sign, and a description that
    begins with a dash. -/
theorem parse_written_nested :
    split .all "\x7b?(a|\x7bb: \x7b\x7d\x7d)\x7d m - - c [d=e]" =
      .ok ⟨some "?(a|\x7bb: \x7b\x7d\x7d)", some "m", some "- c [d=e]"⟩ ∧
    parse .all "\x7b?(a|\x7bb: \x7b\x7d\x7d)\x7d [n m=['f=', []]] - - c [d=e]" =
      .ok { types := ["a", "\x7bb: \x7b\x7d\x7d"]
            nullable := some true
            spread := false
            subject := some ⟨"n m", true, some ⟨"['f=', []]", .list [.str "f=", .list []]⟩⟩
            description := some "- c [d=e]" } := by
  have hclosed : ("?(a|\x7bb: \x7b\x7d\x7d)".toList.all fun c => decide
      (['\x7d', c] <:+: "?(a|\x7bb: \x7b\x7d\x7d)".toList → Text.isBlank c = false)) = true := by
    decide +kernel
  have htype : TypeText "?(a|\x7bb: \x7b\x7d\x7d)".toList :=
    ⟨by decide +kernel, fun c hc => of_decide_eq_true (List.all_eq_true.mp hclosed c hc)⟩
  have hbalanced : Balanced "['f=', []]".toList := by
    have hfront : Balanced ("'f=', ".toList ++ ['[', ']']) :=
      (Balanced.bracket .nil .nil).append_of_not_mem (by decide) (by decide)
    exact .bracket hfront .nil
  have hread : Literal.read "['f=', []]" = .ok (.list [.str "f=", .list []]) := by
    have hdata : Value.Data Literal.depthLimit (.list [.str "f=", .list []]) := by
      refine .list ?_
      simpa using ⟨Value.Data.str "f=", Value.Data.list nofun⟩
    have hform : (Value.list [.str "f=", .list []]).display = "['f=', []]" := by decide +kernel
    rw [← hform, Literal.read_of_data hdata]
  have hparse := parse_written htype (show Text.trimmed "- c [d=e]" = "- c [d=e]" by decide +kernel)
  refine ⟨hparse.1 "m" ⟨by decide, List.forall_mem_singleton.mpr rfl, by decide⟩, ?_⟩
  exact ((hparse.2 "n m" "['f=', []]" ⟨by decide +kernel, by decide +kernel, by decide +kernel,
    by decide +kernel, by decide +kernel⟩ (by decide +kernel) hbalanced).2 (by decide +kernel)).1 _
    hread

/-- A literal in which an integer beyond all doubles is added to an imaginary number. -/
def hugeLiteral : List Char := '0' :: 'x' :: (List.replicate 256 'f' ++ ['+', '1', 'j'])

theorem read_hugeLiteral : Literal.read (String.ofList hugeLiteral) = .error .integerTooLarge := by
  have hfails : (Literal.read (String.ofList hugeLiteral)).isOk = false := by
    rw [Literal.read, String.toList_ofList]
    decide +kernel
  cases hread : Literal.read (String.ofList hugeLiteral) with
  | ok value => cases (congrArg Except.isOk hread).symm.trans hfails
  | error e => rfl

/-- A type, a name, a default and a description as they should be, from which no descriptor is
    read. -/
theorem not_parse_written_huge :
    let default := String.ofList hugeLiteral
    TypeText "number".toList ∧ [] ∉ (typePart (some "number")).1 ∧ InnerName "x".toList ∧
      Text.trimmed default = default ∧ Balanced default.toList ∧ Text.trimmed "limit" = "limit" ∧
      parse .all (written "number" (writtenOptional "x" default) "limit") = .error .overflow := by
  intro default
  have htype : TypeText "number".toList :=
    ⟨by decide, fun c _ hpair => absurd (hpair.subset List.mem_cons_self) (by decide)⟩
  have hwhole : [] ∉ (typePart (some "number")).1 := by decide
  have hname : InnerName "x".toList := ⟨by decide, by decide, by decide, by decide, by decide⟩
  have hdefault : Text.trimmed default = default := by
    have htrim : Text.trim hugeLiteral = hugeLiteral := by decide +kernel
    rw [Text.trimmed, Text.onText, String.toList_ofList, htrim]
  have hbalanced : Balanced default.toList := by
    have hopen : '[' ∉ hugeLiteral := by decide +kernel
    have hclose : ']' ∉ hugeLiteral := by decide +kernel
    rw [String.toList_ofList]
    simpa using Balanced.nil.append_of_not_mem hopen hclose
  have hdescription : Text.trimmed "limit" = "limit" := by decide +kernel
  refine ⟨htype, hwhole, hname, hdefault, hbalanced, hdescription, ?_⟩
  rw [parse_writtenOptional htype hname hdefault hbalanced hdescription hwhole, read_hugeLiteral]
  rfl

end DocGraph.Descriptor
