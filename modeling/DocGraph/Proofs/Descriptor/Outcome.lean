import DocGraph.Proofs.Descriptor.Alternatives

/-! What becomes of a tag value.

    A value is headed by a type, which is the wildcard where no type clause stands; behind it a name
    is looked for, and in the name a default. The notions here say of the text itself when each of
    them is missing or at fault (`Nameless`, `Lacking`, `Overflows`) and what is read where nothing
    is (`Spells`). `parse_outcome` puts them together: of four outcomes, every value has the one
    that the first fault in it decides. -/

namespace DocGraph.Descriptor

/-! ### The type clause -/

/-- A type clause at the head of a text, and what follows the white space behind it. -/
structure TypeClause (body type rest : List Char) : Prop where
  typeText : TypeText type
  cut : ∃ after, body = '\x7b' :: (type ++ '\x7d' :: after) ∧ atBoundary after = true ∧
    rest = after.dropWhile Text.isBlank

/-- The type text of a value and what is left behind it. A value without a type clause, or one whose
    type is not wanted, has the wildcard type and is left as it is. -/
inductive Headed (wanted : Wanted) (body : List Char) : List Char → List Char → Prop
  | clause {type rest : List Char} (hwanted : wanted.type = true) (h : TypeClause body type rest) :
      Headed wanted body type rest
  | wildcard (h : wanted.type = true → ∀ type rest, ¬ TypeClause body type rest) :
      Headed wanted body ['*'] body

theorem typeText_nil : TypeText [] := ⟨List.not_mem_nil, fun _ hmem => absurd hmem List.not_mem_nil⟩

/-- A type text stays one with a character before it that does not end it. -/
theorem TypeText.cons {c : Char} {type : List Char} (h : TypeText type) (hat : c ≠ '@')
    (hstop : c = '\x7d' → ∀ d ∈ type.head?, Text.isBlank d = false) : TypeText (c :: type) := by
  refine ⟨fun hmem => (List.mem_cons.mp hmem).elim (fun he => hat he.symm) h.noAt,
    fun d _ hpair => ?_⟩
  rcases List.infix_cons_iff.mp hpair with hhere | hlater
  · obtain ⟨rest, hrest⟩ := hhere
    obtain ⟨rfl, htype⟩ := List.cons.inj hrest
    exact hstop rfl d (by simp [← htype])
  · exact h.closed d (hlater.subset (by simp)) hlater

theorem typeTail_eq_some {cs type rest : List Char} (h : typeTail cs = some (type, rest)) :
    TypeText type ∧ ∃ after, cs = type ++ '\x7d' :: after ∧ atBoundary after = true ∧
      rest = after.dropWhile Text.isBlank := by
  induction cs generalizing type with
  | nil => cases h
  | cons c cs ih =>
    rw [typeTail] at h
    split at h
    · next hend =>
      rw [Bool.and_eq_true, decide_eq_true_iff] at hend
      obtain ⟨rfl, hboundary⟩ := hend
      obtain ⟨rfl, rfl⟩ := Prod.mk.inj (Option.some.inj h)
      exact ⟨typeText_nil, cs, rfl, hboundary, rfl⟩
    · next hend =>
      split at h
      · cases h
      · next hat =>
        obtain ⟨⟨tail, rest'⟩, htail, heq⟩ := Option.map_eq_some_iff.mp h
        obtain ⟨rfl, rfl⟩ := Prod.mk.inj heq
        obtain ⟨htext, after, rfl, hboundary, hrest⟩ := ih htail
        refine ⟨htext.cons hat ?_, after, rfl, hboundary, hrest⟩
        rintro rfl d hd
        obtain ⟨tail', rfl⟩ := List.head?_eq_some_iff.mp hd
        simpa [atBoundary] using hend

theorem typeClause_iff {body type rest : List Char} :
    TypeClause body type rest ↔ typeClause? body = some (type, rest) := by
  constructor
  · rintro ⟨htype, after, rfl, hboundary, rfl⟩
    exact typeTail_append hboundary htype
  · intro h
    rw [typeClause?.eq_def] at h
    split at h
    · obtain ⟨htype, after, rfl, hboundary, hrest⟩ := typeTail_eq_some h
      exact ⟨htype, after, rfl, hboundary, hrest⟩
    · cases h

theorem exists_headed (wanted : Wanted) (body : List Char) :
    ∃ type rest, Headed wanted body type rest := by
  by_cases hclause : wanted.type = true ∧ ∃ type rest, TypeClause body type rest
  · obtain ⟨hwanted, type, rest, h⟩ := hclause
    exact ⟨type, rest, .clause hwanted h⟩
  · exact ⟨['*'], body, .wildcard fun hwanted type rest h => hclause ⟨hwanted, type, rest, h⟩⟩

section Headed

variable {wanted : Wanted} {body type rest : List Char}

theorem Headed.unique {type' rest' : List Char} (h : Headed wanted body type rest)
    (h' : Headed wanted body type' rest') : type' = type ∧ rest' = rest := by
  cases h with
  | clause hwanted hclause =>
    cases h' with
    | clause _ hclause' =>
      have hsame := (typeClause_iff.mp hclause').symm.trans (typeClause_iff.mp hclause)
      exact Prod.mk.inj (Option.some.inj hsame)
    | wildcard hnone => exact absurd hclause (hnone hwanted _ _)
  | wildcard hnone =>
    cases h' with
    | clause hwanted hclause => exact absurd hclause (hnone hwanted _ _)
    | wildcard => exact ⟨rfl, rfl⟩

/-- What is left behind the type of a trimmed value does not begin with white space. -/
theorem Headed.head_rest (h : Headed wanted body type rest)
    (hbody : ∀ c ∈ body.head?, Text.isBlank c = false) :
    ∀ c ∈ rest.head?, Text.isBlank c = false := by
  cases h with
  | clause _ hclause =>
    obtain ⟨-, after, -, -, rfl⟩ := hclause
    intro c hc
    have hhead := List.head?_dropWhile_not Text.isBlank after
    rw [Option.mem_def.mp hc] at hhead
    simpa using hhead
  | wildcard => exact hbody

/-- What is cut off a value behind its type. -/
def cutRest (wanted : Wanted) (value : String) (typeText : Option String) (rest : List Char) :
    Except Malformed Clauses :=
  if wanted.name then
    match nameClause value rest with
    | .error e => .error e
    | .ok (name, rest) =>
      .ok ⟨typeText, some (String.ofList name),
        if wanted.description then some (String.ofList (descriptionClause rest)) else none⟩
  else
    .ok ⟨typeText, none,
      if wanted.description then some (String.ofList (descriptionClause rest)) else none⟩

theorem Headed.split_eq {value : String} (h : Headed wanted (Text.trim value.toList) type rest) :
    split wanted value =
      cutRest wanted value (if wanted.type then some (String.ofList type) else none) rest := by
  cases h with
  | clause hwanted hclause =>
    simp only [split, hwanted, if_true, splitType, typeClause_iff.mp hclause]
    rfl
  | wildcard hnone =>
    by_cases hwanted : wanted.type = true
    · have hclause : typeClause? (Text.trim value.toList) = none := by
        rw [Option.eq_none_iff_forall_ne_some]
        rintro ⟨type, rest⟩ h
        exact hnone hwanted type rest (typeClause_iff.mpr h)
      simp only [split, hwanted, if_true, splitType, hclause]
      rfl
    · simp only [split, if_neg hwanted]
      rfl

/-- A type that is not wanted counts as the wildcard. -/
theorem Headed.typePart_eq (h : Headed wanted body type rest) :
    typePart (if wanted.type then some (String.ofList type) else none) =
      typePart (some (String.ofList type)) := by
  cases h with
  | clause hwanted => rw [if_pos hwanted]
  | wildcard =>
    split
    · rfl
    · decide

end Headed

/-! ### The name clause -/

/-- No name stands at the head of a text: it is empty, or opens a bracket and has no beginning in
    which as many brackets close as open. -/
def Nameless (rest : List Char) : Prop :=
  rest = [] ∨ (rest.head? = some '[' ∧
    ∀ front ∈ rest.inits, front ≠ [] → front.count '[' ≠ front.count ']')

/-- The name at the head of a text: a word, or what stands in a pair of brackets. -/
inductive HasName : List Char → List Char → Prop
  | word {word after : List Char} (hne : word ≠ []) (hfirst : word.head? ≠ some '[')
      (hword : ∀ c ∈ word, Text.isBlank c = false) (hafter : atBoundary after = true) :
      HasName (word ++ after) word
  | bracket {inner after : List Char} (h : Balanced inner) :
      HasName ('[' :: (inner ++ ']' :: after)) inner

theorem bracketTail_eq_none_iff {depth : Int} {cs : List Char} :
    bracketTail depth cs = none ↔
      ∀ front, front <+: cs → front ≠ [] → depth + front.count '[' ≠ front.count ']' := by
  induction cs generalizing depth with
  | nil => simp [bracketTail]
  | cons c cs ih =>
    let next : Int := if c = '[' then depth + 1 else if c = ']' then depth - 1 else depth
    have hcount : ∀ front : List Char, depth + (c :: front).count '[' = (c :: front).count ']' ↔
        next + front.count '[' = front.count ']' := by
      intro front
      simp only [next, List.count_cons]
      by_cases hopen : c = '['
      · simp [hopen]
        omega
      by_cases hclose : c = ']'
      · simp [hclose]
        omega
      · simp [hopen, hclose]
    rw [bracketTail]
    by_cases hnext : next = 0
    · rw [if_pos hnext]
      refine ⟨fun hnone => absurd hnone (Option.some_ne_none _), fun h => ?_⟩
      refine absurd ((hcount []).mpr (by simpa using hnext)) ?_
      exact h [c] (by simp) (by simp)
    · rw [if_neg hnext, Option.map_eq_none_iff, ih]
      constructor
      · rintro h front hfront hne
        rcases List.prefix_cons_iff.mp hfront with rfl | ⟨tail, rfl, htail⟩
        · exact absurd rfl hne
        rw [ne_eq, hcount]
        by_cases hnil : tail = []
        · simpa [hnil] using hnext
        · exact h tail htail hnil
      · intro h front hfront hne
        rw [ne_eq, ← hcount]
        exact h (c :: front) (by simpa using hfront) (by simp)

/-- In front of a bracket that closes an earlier one stands a text whose brackets match. -/
theorem exists_balanced_of_bracketTail (n : Nat) (cs : List Char)
    (h : bracketTail (n + 1 : Nat) cs ≠ none) :
    ∃ inner rest, Balanced inner ∧ cs = inner ++ ']' :: rest ∧
      (n ≠ 0 → bracketTail n rest ≠ none) := by
  match cs with
  | [] => exact absurd rfl h
  | c :: cs =>
    rw [bracketTail] at h
    by_cases hopen : c = '['
    · -- the bracket closes first, and then the one that was open before it
      have hdepth : ((n + 1 : Nat) : Int) + 1 ≠ 0 := by omega
      rw [if_pos hopen, if_neg hdepth, Ne, Option.map_eq_none_iff] at h
      obtain ⟨inner, rest, hinner, hcs, hrest⟩ := exists_balanced_of_bracketTail (n + 1) cs h
      obtain ⟨inner', rest', hinner', hrest', hlater⟩ :=
        exists_balanced_of_bracketTail n rest (hrest (by omega))
      refine ⟨'[' :: (inner ++ ']' :: inner'), rest', .bracket hinner hinner', ?_, hlater⟩
      simp [hopen, hcs, hrest']
    · by_cases hclose : c = ']'
      · have hdepth : ((n + 1 : Nat) : Int) - 1 = n := by omega
        rw [if_neg hopen, if_pos hclose, hdepth] at h
        refine ⟨[], cs, .nil, by simp [hclose], fun hn => ?_⟩
        rwa [if_neg (by omega), Ne, Option.map_eq_none_iff] at h
      · rw [if_neg hopen, if_neg hclose, if_neg (by omega), Ne, Option.map_eq_none_iff] at h
        obtain ⟨inner, rest, hinner, hcs, hrest⟩ := exists_balanced_of_bracketTail n cs h
        exact ⟨c :: inner, rest, .cons hopen hclose hinner, by simp [hcs], hrest⟩
termination_by cs.length
decreasing_by
  · simp
  · simp [hcs]
    omega
  · simp

section Name

variable {rest name : List Char}

theorem nameless_bracket_iff {cs : List Char} :
    Nameless ('[' :: cs) ↔ bracketTail 0 ('[' :: cs) = none := by
  rw [bracketTail_eq_none_iff]
  simp only [Nameless, List.cons_ne_nil, List.head?_cons, true_and, false_or, List.mem_inits]
  refine forall_congr' fun front => imp_congr_right fun _ => imp_congr_right fun _ => ?_
  omega

/-- Where a text is not without a name, one stands at its head. -/
theorem exists_hasName (hfirst : ∀ c ∈ rest.head?, Text.isBlank c = false) (h : ¬ Nameless rest) :
    ∃ name, HasName rest name := by
  by_cases hopen : rest.head? = some '['
  · obtain ⟨cs, rfl⟩ := List.head?_eq_some_iff.mp hopen
    have hcloses : bracketTail 0 ('[' :: cs) ≠ none := fun hnone =>
      h (nameless_bracket_iff.mpr hnone)
    rw [bracketTail, if_pos rfl, if_neg (by omega), Ne, Option.map_eq_none_iff] at hcloses
    obtain ⟨inner, after, hinner, rfl, -⟩ := exists_balanced_of_bracketTail 0 cs hcloses
    exact ⟨inner, .bracket hinner⟩
  · obtain ⟨c, cs, rfl⟩ := List.exists_cons_of_ne_nil fun hnil => h (Or.inl hnil)
    have hc : Text.isBlank c = false := hfirst c rfl
    let inWord (c : Char) := !Text.isBlank c
    have hword : (c :: cs).takeWhile inWord = c :: cs.takeWhile inWord :=
      List.takeWhile_cons_of_pos (by simp [inWord, hc])
    have hcut : (c :: cs).takeWhile inWord ++ (c :: cs).dropWhile inWord = c :: cs :=
      List.takeWhile_append_dropWhile
    rw [← hcut]
    refine ⟨_, .word ?_ ?_ (fun x hx => ?_) ?_⟩
    · simp [hword]
    · simpa [hword] using hopen
    · simpa [inWord] using List.mem_takeWhile_imp hx
    · have hstop := List.head?_dropWhile_not inWord (c :: cs)
      cases hafter : (c :: cs).dropWhile inWord with
      | nil => rfl
      | cons d after => simpa [hafter, inWord, atBoundary] using hstop

/-- A name text without the brackets around it. -/
def bareName (text : List Char) : List Char :=
  if text.head? = some '[' then dropBrackets '[' ']' text else text

theorem HasName.nameClause_eq (h : HasName rest name) (value : String) :
    ∃ text after, nameClause value rest = .ok (text, after) ∧ text ≠ [] ∧ bareName text = name := by
  cases h with
  | @word word after hne hfirst hword hafter =>
    have hin : ∀ c ∈ name, (!Text.isBlank c) = true := fun c hc => by simp [hword c hc]
    have hstop : ∀ c ∈ after.head?, (!Text.isBlank c) = false := by
      rintro c hc
      obtain ⟨tail, rfl⟩ := List.head?_eq_some_iff.mp hc
      simpa [atBoundary] using hafter
    refine ⟨name, after.dropWhile Text.isBlank, ?_, hne, if_neg hfirst⟩
    rw [nameClause]
    · simp only [Text.takeWhile_append_of_stop hin hstop, Text.dropWhile_append_of_stop hin hstop]
      rw [if_neg (by simpa using hne)]
    · rintro tail hopen
      have hhead := congrArg List.head? hopen
      rw [List.head?_append_of_ne_nil _ hne] at hhead
      exact hfirst hhead
  | @bracket inner after hinner =>
    refine ⟨'[' :: (name ++ [']']), Text.trim after, ?_, List.cons_ne_nil _ _, ?_⟩
    · simp only [nameClause, bracketTail_bracketed hinner]
    · rw [bareName, List.head?_cons, if_pos rfl, dropBrackets_bracketed]

theorem nameClause_of_nameless (h : Nameless rest) (value : String) :
    nameClause value rest = .error (.missingName value) ∨
      nameClause value rest = .error (.unbalancedName value) := by
  rcases h with rfl | ⟨hopen, hbrackets⟩
  · exact Or.inl rfl
  · obtain ⟨cs, rfl⟩ := List.head?_eq_some_iff.mp hopen
    have hnone := nameless_bracket_iff.mp (Or.inr ⟨hopen, hbrackets⟩)
    right
    simp only [nameClause, hnone]

theorem HasName.not_nameless (h : HasName rest name) : ¬ Nameless rest := by
  intro hnameless
  obtain ⟨text, after, hclause, -⟩ := h.nameClause_eq ""
  rcases nameClause_of_nameless hnameless "" with herror | herror <;> simp [hclause] at herror

end Name

/-! ### The default -/

/-- Reading the default of a name, which stands behind the first equals sign, meets a sum with an
    integer that is too large for it. The rest of the default need not have a value. -/
def Overflows [CharacterNames] (name : List Char) : Prop :=
  ∃ left right, name = left ++ '=' :: right ∧ '=' ∉ left ∧
    Literal.read (String.ofList (Text.trim right)) = .error .integerTooLarge

/-- A name has a subject, unless reading its default meets a number that is too large. -/
theorem subjectOf_cases [CharacterNames] (text : List Char) :
    (Overflows (bareName text) ∧ subjectOf text = .error .overflow) ∨
      ¬ Overflows (bareName text) ∧ ∃ subject, subjectOf text = .ok subject := by
  have hbare : (if text.head? == some '[' then dropBrackets '[' ']' text else text) =
      bareName text := by
    simp [bareName]
  by_cases hequals : '=' ∈ bareName text
  · obtain ⟨left, right, hname, hleft⟩ := List.eq_append_cons_of_mem hequals
    cases hread : Literal.read (String.ofList (Text.trim right)) with
    | error e =>
      left
      refine ⟨⟨left, right, hname, hleft, hread⟩, ?_⟩
      simp only [subjectOf, hbare, hname, Text.cut_append hleft, hread]
    | ok value =>
      right
      refine ⟨?_, ?_⟩
      · rintro ⟨left', right', hname', hleft', hread'⟩
        have hcut := Text.cut_append hleft right
        rw [← hname, hname', Text.cut_append hleft'] at hcut
        obtain ⟨-, hright⟩ := Prod.mk.inj hcut
        rw [Option.some.inj hright, hread] at hread'
        cases hread'
      · simp only [subjectOf, hbare, hname, Text.cut_append hleft, hread]
        exact ⟨_, rfl⟩
  · refine Or.inr ⟨?_, ?_⟩
    · rintro ⟨left, right, hname, -⟩
      exact hequals (by simp [hname])
    · simp only [subjectOf, hbare, Text.cut_of_not_mem hequals]
      exact ⟨_, rfl⟩

/-! ### The type -/

/-- An alternative of a union is missing: it is empty, begins or ends with a bar, or has two bars
    side by side. -/
def Gapped (union : List Char) : Prop :=
  union = [] ∨ union.head? = some '|' ∨ union.getLast? = some '|' ∨ ['|', '|'] <:+: union

/-- A type text lacks an alternative. -/
def Lacking (type : List Char) : Prop :=
  ∃ mark body union, Marked type mark body ∧ Writes body union ∧ ¬ Whole body ∧ Gapped union

/-- The types of a descriptor and its mark are those of a type text: none is empty, together they
    give back the union, and they are cut out of it at every bar unless the text is left whole. -/
def Spells (type : List Char) (d : Descriptor) : Prop :=
  ∃ mark body union, Marked type mark body ∧ Writes body union ∧ d.nullable = mark ∧
    d.types ≠ [] ∧ (∀ t ∈ d.types, t ≠ "") ∧ Text.joined "|" d.types = String.ofList union ∧
    (Whole body → d.types = [String.ofList body]) ∧ (¬ Whole body → ∀ t ∈ d.types, '|' ∉ t.toList)

theorem Whole.ne_nil {cs : List Char} (h : Whole cs) : cs ≠ [] := by
  cases h with
  | record | spread => simp
  | generic _ hspanned =>
    obtain ⟨front, rest, rfl, -⟩ := hspanned
    simp

theorem Writes.eq_of_whole {cs union : List Char} (h : Writes cs union) (hwhole : Whole cs) :
    union = cs := by
  cases h with
  | closed | unclosed => exact absurd hwhole not_whole_parenthesis
  | bare => rfl

section Types

variable {type body : List Char} {mark : Option Bool}

theorem nil_mem_alternatives_iff (h : Marked type mark body) :
    [] ∈ alternatives body ↔ Lacking type := by
  constructor
  · intro hempty
    by_cases hwhole : Whole body
    · rw [alternatives_of_whole hwhole, List.mem_singleton] at hempty
      exact absurd hempty.symm hwhole.ne_nil
    · obtain ⟨union, hunion⟩ := exists_writes body
      rw [alternatives_of_not_whole hwhole hunion, Text.nil_mem_splitOn_iff] at hempty
      exact ⟨mark, body, union, h, hunion, hwhole, hempty⟩
  · rintro ⟨mark', body', union, h', hunion, hwhole, hgap⟩
    obtain ⟨-, rfl⟩ := Prod.mk.inj (h'.nullableMark_eq.symm.trans h.nullableMark_eq)
    rw [alternatives_of_not_whole hwhole hunion, Text.nil_mem_splitOn_iff]
    exact hgap

theorem spells_alternatives (h : Marked type mark body) (hlacking : ¬ Lacking type) (spread : Bool)
    (subject : Option Subject) (description : Option String) :
    Spells type ⟨(alternatives body).map String.ofList, mark, spread, subject, description⟩ := by
  obtain ⟨union, hunion⟩ := exists_writes body
  have hempty : [] ∉ alternatives body := fun hmem =>
    hlacking ((nil_mem_alternatives_iff h).mp hmem)
  have hjoin : alternatives body ≠ [] ∧ Text.joinWith ['|'] (alternatives body) = union := by
    by_cases hwhole : Whole body
    · rw [alternatives_of_whole hwhole, hunion.eq_of_whole hwhole]
      exact ⟨List.cons_ne_nil _ _, List.intercalate_singleton⟩
    · rw [alternatives_of_not_whole hwhole hunion]
      exact ⟨Text.splitOn_ne_nil _ _, Text.joinWith_splitOn _ _⟩
  refine ⟨mark, body, union, h, hunion, rfl, ?_, fun t ht => ?_, ?_, fun hwhole => ?_,
    fun hwhole t ht => ?_⟩
  · simpa using hjoin.1
  · obtain ⟨piece, hpiece, rfl⟩ := List.mem_map.mp ht
    rintro hnil
    rw [String.ofList_eq_empty_iff] at hnil
    exact hempty (hnil ▸ hpiece)
  · rw [Text.joined_ofList]
    exact congrArg String.ofList hjoin.2
  · rw [alternatives_of_whole hwhole, List.map_singleton]
  · obtain ⟨piece, hpiece, rfl⟩ := List.mem_map.mp ht
    rw [alternatives_of_not_whole hwhole hunion] at hpiece
    rw [String.toList_ofList]
    exact Text.not_mem_of_mem_splitOn hpiece

end Types

/-! ### The outcome -/

/-- A name is wanted, and none is there. -/
def Unnamed (wanted : Wanted) (rest : List Char) : Prop := wanted.name = true ∧ Nameless rest

/-- A name is wanted, and reading its default meets a number that is too large. -/
def TooLarge [CharacterNames] (wanted : Wanted) (rest : List Char) : Prop :=
  wanted.name = true ∧ ∃ name, HasName rest name ∧ Overflows name

theorem HasName.unique {rest name name' : List Char} (h : HasName rest name)
    (h' : HasName rest name') : name' = name := by
  obtain ⟨text, after, hclause, -, hbare⟩ := h.nameClause_eq ""
  obtain ⟨text', after', hclause', -, hbare'⟩ := h'.nameClause_eq ""
  rw [hclause] at hclause'
  obtain ⟨rfl, -⟩ := Prod.mk.inj (Except.ok.inj hclause')
  exact hbare'.symm.trans hbare

section Outcome

variable {wanted : Wanted} {value : String} {type rest : List Char}

theorem Headed.wanted_of_lacking {body : List Char} (h : Headed wanted body type rest)
    (hlacking : Lacking type) : wanted.type = true := by
  cases h with
  | clause hwanted => exact hwanted
  | wildcard =>
    have hmarked : Marked ['*'] none ['*'] := .plain (by decide) (by decide)
    exact absurd ((nil_mem_alternatives_iff hmarked).mpr hlacking) (by decide)

theorem Headed.split_of_unnamed (h : Headed wanted (Text.trim value.toList) type rest)
    (hunnamed : Unnamed wanted rest) :
    split wanted value = .error (.missingName value) ∨
      split wanted value = .error (.unbalancedName value) := by
  obtain ⟨hname, hnameless⟩ := hunnamed
  rw [h.split_eq, cutRest, if_pos hname]
  rcases nameClause_of_nameless hnameless value with hclause | hclause
  · exact Or.inl (by rw [hclause])
  · exact Or.inr (by rw [hclause])

/-- Where no name is missing, a value has its clauses; a name among them is the one at the head. -/
theorem Headed.split_of_named (h : Headed wanted (Text.trim value.toList) type rest)
    (hnamed : ¬ Unnamed wanted rest) :
    ∃ clauses, split wanted value = .ok clauses ∧
      clauses.typeText = (if wanted.type then some (String.ofList type) else none) ∧
      (wanted.name = false ∧ clauses.nameText = none ∨
        wanted.name = true ∧ ∃ text, clauses.nameText = some (String.ofList text) ∧ text ≠ [] ∧
          HasName rest (bareName text)) := by
  rw [h.split_eq, cutRest]
  cases hname : wanted.name with
  | false => exact ⟨_, rfl, rfl, Or.inl ⟨rfl, rfl⟩⟩
  | true =>
    have hfirst := h.head_rest (Text.head_trimWith Text.isBlank value.toList)
    obtain ⟨name, hhas⟩ := exists_hasName hfirst fun hless => hnamed ⟨hname, hless⟩
    obtain ⟨text, after, hclause, hne, rfl⟩ := hhas.nameClause_eq value
    rw [if_pos rfl, hclause]
    exact ⟨_, rfl, rfl, Or.inr ⟨rfl, text, rfl, hne, hhas⟩⟩

/-- A value cannot be cut into its clauses exactly if a name is wanted and none is there. -/
theorem Headed.exists_split_iff (h : Headed wanted (Text.trim value.toList) type rest) :
    (∃ clauses, split wanted value = .ok clauses) ↔ ¬ Unnamed wanted rest := by
  constructor
  · rintro ⟨clauses, hclauses⟩ hunnamed
    rcases h.split_of_unnamed hunnamed with herror | herror <;> cases hclauses.symm.trans herror
  · intro hnamed
    obtain ⟨clauses, hsplit, -⟩ := h.split_of_named hnamed
    exact ⟨clauses, hsplit⟩

/-- What becomes of a value: its name is missing, else its type lacks an alternative, else its
    default has a number that is too large, else it is read. -/
theorem Headed.parse_cases [CharacterNames] (h : Headed wanted (Text.trim value.toList) type rest) :
    Unnamed wanted rest ∧
        (parse wanted value = .error (.malformed (.missingName value)) ∨
          parse wanted value = .error (.malformed (.unbalancedName value))) ∨
      ¬ Unnamed wanted rest ∧ Lacking type ∧
        (∃ name description,
          parse wanted value = .error (.malformed (.emptyType name description))) ∨
      ¬ Unnamed wanted rest ∧ ¬ Lacking type ∧ TooLarge wanted rest ∧
        parse wanted value = .error .overflow ∨
      ¬ Unnamed wanted rest ∧ ¬ Lacking type ∧ ¬ TooLarge wanted rest ∧
        ∃ d, parse wanted value = .ok d ∧ Spells type d := by
  by_cases hunnamed : Unnamed wanted rest
  · refine Or.inl ⟨hunnamed, (h.split_of_unnamed hunnamed).imp (fun herror => ?_) fun herror => ?_⟩
    · rw [parse, herror]
    · rw [parse, herror]
  right
  obtain ⟨clauses, hsplit, htext, hname⟩ := h.split_of_named hunnamed
  obtain ⟨mark, body, hmarked⟩ := exists_marked type
  have htype : typePart clauses.typeText = (alternatives body, mark, isSpread body) := by
    rw [htext, h.typePart_eq, Marked.typePart_eq (by rwa [String.toList_ofList])]
  simp only [parse, hsplit]
  by_cases hlacking : Lacking type
  · have hempty := (nil_mem_alternatives_iff hmarked).mpr hlacking
    exact Or.inl ⟨hunnamed, hlacking, _, _, refine_of_nil_mem htype hempty⟩
  right
  have hempty : [] ∉ alternatives body := fun hmem =>
    hlacking ((nil_mem_alternatives_iff hmarked).mp hmem)
  rcases hname with ⟨hwanted, hnone⟩ | ⟨hwanted, text, htext, hne, hhas⟩
  · refine Or.inr ⟨hunnamed, hlacking, fun hlarge => ?_, _, refine_of_unnamed htype hempty hnone,
      spells_alternatives hmarked hlacking ..⟩
    exact absurd (hwanted.symm.trans hlarge.1) Bool.false_ne_true
  · rw [refine_of_named htype hempty htext hne]
    rcases subjectOf_cases text with ⟨hover, hsubject⟩ | ⟨hover, subject, hsubject⟩
    · exact Or.inl ⟨hunnamed, hlacking, ⟨hwanted, _, hhas, hover⟩, by rw [hsubject]; rfl⟩
    · refine Or.inr ⟨hunnamed, hlacking, ?_, _, by rw [hsubject]; rfl,
        spells_alternatives hmarked hlacking ..⟩
      rintro ⟨-, name, hname, hlarge⟩
      exact hover (hhas.unique hname ▸ hlarge)

end Outcome

/-- Every value has one type text and one rest. It is refused for its name exactly if a name is
    wanted and the rest has none; else for its type exactly if a type is wanted and lacks an
    alternative; else for a number exactly if the default of a wanted name has one that is too
    large. In all other cases, and only in them, it is read, with the types and the mark of its type
    text. -/
theorem parse_outcome [CharacterNames] (wanted : Wanted) (value : String) :
    ∃ type rest,
      (∀ type' rest', Headed wanted (Text.trim value.toList) type' rest' ↔
        type' = type ∧ rest' = rest) ∧
      (parse wanted value = .error (.malformed (.missingName value)) ∨
          parse wanted value = .error (.malformed (.unbalancedName value)) ↔
        Unnamed wanted rest) ∧
      ((∃ name description,
          parse wanted value = .error (.malformed (.emptyType name description))) ↔
        ¬ Unnamed wanted rest ∧ wanted.type = true ∧ Lacking type) ∧
      (parse wanted value = .error .overflow ↔
        ¬ Unnamed wanted rest ∧ ¬ Lacking type ∧ TooLarge wanted rest) ∧
      ((∃ d, parse wanted value = .ok d ∧ Spells type d) ↔
        ¬ Unnamed wanted rest ∧ ¬ Lacking type ∧ ¬ TooLarge wanted rest) := by
  obtain ⟨type, rest, h⟩ := exists_headed wanted (Text.trim value.toList)
  refine ⟨type, rest, fun type' rest' => ⟨h.unique, ?_⟩, ?_⟩
  · rintro ⟨rfl, rfl⟩
    exact h
  have hwanted : wanted.type = true ∧ Lacking type ↔ Lacking type :=
    and_iff_right_of_imp h.wanted_of_lacking
  rw [hwanted]
  rcases h.parse_cases with ⟨hunnamed, herror | herror⟩ | ⟨hnamed, hlacking, _, _, herror⟩ |
    ⟨hnamed, hlacking, hlarge, herror⟩ | ⟨hnamed, hlacking, hlarge, d, hok, hspells⟩
  · simp [hunnamed, herror]
  · simp [hunnamed, herror]
  · simp [hnamed, hlacking, herror]
  · simp [hnamed, hlacking, hlarge, herror]
  · simp [hnamed, hlacking, hlarge, hok, hspells]

/-- A value that has a name and lacks no alternative of its type, but is not read. -/
theorem parse_hugeLiteral :
    let value := written "number" (writtenOptional "x" (String.ofList hugeLiteral)) "limit"
    (∃ rest, Headed .all (Text.trim value.toList) "number".toList rest ∧ ¬ Unnamed .all rest ∧
      ¬ Lacking "number".toList) ∧ parse .all value = .error .overflow := by
  intro value
  let inner := 'x' :: '=' :: hugeLiteral
  let rest := '[' :: (inner ++ ']' :: ' ' :: '-' :: behind "limit".toList)
  have hhead : Headed .all (Text.trim value.toList) "number".toList rest := by
    refine .clause rfl ⟨⟨by decide, fun c _ hpair => ?_⟩, ' ' :: rest, ?_, rfl, rfl⟩
    · exact absurd (hpair.subset List.mem_cons_self) (by decide)
    · simp [value, rest, inner, trim_written _ _ (by decide : Text.trim "limit".toList = _),
        toList_writtenOptional]
  have hname : HasName rest inner := by
    have hopen : '[' ∉ inner := by decide +kernel
    have hclose : ']' ∉ inner := by decide +kernel
    exact .bracket (by simpa using Balanced.nil.append_of_not_mem hopen hclose)
  have hnamed : ¬ Unnamed .all rest := fun hunnamed => hname.not_nameless hunnamed.2
  have hwhole : ¬ Lacking "number".toList := by
    have hmarked : Marked "number".toList none "number".toList := .plain (by decide) (by decide)
    exact fun hlacking => absurd ((nil_mem_alternatives_iff hmarked).mpr hlacking) (by decide)
  have hlarge : TooLarge .all rest := by
    refine ⟨rfl, inner, hname, ['x'], hugeLiteral, rfl, by decide, ?_⟩
    rw [show Text.trim hugeLiteral = hugeLiteral by decide +kernel]
    exact read_hugeLiteral
  refine ⟨⟨rest, hhead, hnamed, hwhole⟩, ?_⟩
  rcases hhead.parse_cases with ⟨hunnamed, -⟩ | ⟨-, hlacking, -⟩ | ⟨-, -, -, herror⟩ |
    ⟨-, -, hsmall, -⟩
  · exact absurd hunnamed hnamed
  · exact absurd hlacking hwhole
  · exact herror
  · exact absurd hlarge hsmall

end DocGraph.Descriptor
