import DocGraph.Proofs.Descriptor.Outcome

/-! The name that a tag value gives.

    Whether a name is there is seen on the text behind the type; the name itself is what is left of
    that text without its brackets and its default, trimmed. So a name can be there and be empty
    (`Anonymous`): `parse_subject` says of every value that is read what its name is, and that it is
    empty in these cases only. -/

namespace DocGraph.Descriptor

/-! ### What is left of a name -/

/-- What a name text says before its default. -/
def beforeDefault (name : List Char) : List Char := Text.trim (name.takeWhile (· != '='))

/-- The name of a subject is what its text says before the default. -/
theorem name_of_subjectOf [CharacterNames] {text : List Char} {subject : Subject}
    (h : subjectOf text = .ok subject) :
    subject.name = String.ofList (beforeDefault (bareName text)) := by
  have hbare : (if text.head? == some '[' then dropBrackets '[' ']' text else text) =
      bareName text := by
    simp [bareName]
  simp only [subjectOf, hbare, Text.cut] at h
  split at h
  · rw [← Except.ok.inj h, beforeDefault]
  · split at h
    · rw [← Except.ok.inj h, beforeDefault]
    · cases h

/-- Clauses with a name text that are refined give its subject. -/
theorem subject_of_refine [CharacterNames] {clauses : Clauses} {text : List Char} {d : Descriptor}
    (h : refine clauses = .ok d) (htext : clauses.nameText = some (String.ofList text))
    (hne : text ≠ []) : ∃ subject, subjectOf text = .ok subject ∧ d.subject = some subject := by
  obtain ⟨types, mark, spread, htype⟩ :
      ∃ types mark spread, typePart clauses.typeText = (types, mark, spread) := ⟨_, _, _, rfl⟩
  by_cases hempty : [] ∈ types
  · rw [refine_of_nil_mem htype hempty] at h
    cases h
  · rw [refine_of_named htype hempty htext hne] at h
    cases hsubject : subjectOf text with
    | error e =>
      rw [hsubject] at h
      cases h
    | ok subject =>
      rw [hsubject] at h
      exact ⟨subject, rfl, by rw [← Except.ok.inj h]⟩

/-! ### Names that are empty -/

/-- A text is headed by a name that says nothing before its default: an equals sign, or a bracket
    with an equals sign or its closing bracket next to it, but for white space. -/
def Anonymous (rest : List Char) : Prop :=
  rest.head? = some '=' ∨ ∃ blanks c after, rest = '[' :: (blanks ++ c :: after) ∧
    (∀ b ∈ blanks, Text.isBlank b = true) ∧ (c = '=' ∨ c = ']')

theorem beforeDefault_eq_nil_iff {name : List Char} :
    beforeDefault name = [] ↔ ∀ c ∈ name.takeWhile (· != '='), Text.isBlank c = true :=
  Text.trimWith_eq_nil_iff

/-- A name that begins with white space, of any length, and then ends or has its default. -/
theorem beforeDefault_blanks {blanks : List Char} (h : ∀ b ∈ blanks, Text.isBlank b = true) :
    beforeDefault blanks = [] ∧ ∀ default, beforeDefault (blanks ++ '=' :: default) = [] := by
  refine ⟨beforeDefault_eq_nil_iff.mpr fun c hc => h c (List.takeWhile_subset _ hc), ?_⟩
  intro default
  have hin : ∀ b ∈ blanks, (b != '=') = true := by
    intro b hb
    have hblank := h b hb
    rw [bne_iff_ne]
    rintro rfl
    cases hblank
  refine beforeDefault_eq_nil_iff.mpr fun c hc => h c ?_
  rwa [Text.takeWhile_append_of_stop hin (by simp)] at hc

theorem not_mem_blanks {blanks : List Char} (h : ∀ b ∈ blanks, Text.isBlank b = true) {c : Char}
    (hc : Text.isBlank c = false) : c ∉ blanks := by
  intro hmem
  rw [h c hmem] at hc
  cases hc

/-- A bracket with white space and an equals sign behind it holds a name that begins so. -/
theorem exists_default_of_append {blanks inner after rest : List Char}
    (hblanks : ∀ b ∈ blanks, Text.isBlank b = true)
    (h : inner ++ ']' :: after = blanks ++ '=' :: rest) :
    ∃ default, inner = blanks ++ '=' :: default := by
  rcases List.append_eq_append_iff.mp h with ⟨back, rfl, hback⟩ | ⟨back, rfl, hback⟩
  · -- the closing bracket would stand among the blanks
    cases back with
    | nil => cases hback
    | cons c back =>
      obtain ⟨rfl, -⟩ := List.cons.inj hback
      exact absurd (by simp) (not_mem_blanks hblanks (c := ']') rfl)
  · cases back with
    | nil => cases hback
    | cons c back =>
      obtain ⟨rfl, -⟩ := List.cons.inj hback
      exact ⟨back, rfl⟩

section HasName

variable {rest name : List Char}

theorem HasName.anonymous (h : HasName rest name) (hnil : beforeDefault name = []) :
    Anonymous rest := by
  have hall := beforeDefault_eq_nil_iff.mp hnil
  have hcut := List.takeWhile_append_dropWhile (p := fun c => c != '=') (l := name)
  have hstop := List.head?_dropWhile_not (fun c => c != '=') name
  cases h with
  | word hne _ hword _ =>
    obtain ⟨c, name, rfl⟩ := List.exists_cons_of_ne_nil hne
    by_cases hc : c = '='
    · exact Or.inl (by simp [hc])
    · have hblank := hall c (by simp [hc])
      rw [hword c List.mem_cons_self] at hblank
      cases hblank
  | @bracket _ after hinner =>
    cases hdrop : name.dropWhile (fun c => c != '=') with
    | nil =>
      rw [hdrop, List.append_nil] at hcut
      rw [hcut] at hall
      exact Or.inr ⟨name, ']', _, rfl, hall, Or.inr rfl⟩
    | cons c default =>
      rw [hdrop] at hcut hstop
      refine Or.inr ⟨_, c, default ++ ']' :: after, ?_, hall, Or.inl (by simpa using hstop)⟩
      conv_lhs => rw [← hcut]
      simp

theorem HasName.beforeDefault_eq_nil (h : HasName rest name) (hrest : Anonymous rest) :
    beforeDefault name = [] := by
  rcases hrest with hequals | ⟨blanks, c, after, rfl, hblanks, rfl | rfl⟩
  · cases h with
    | word hne =>
      rw [List.head?_append_of_ne_nil _ hne] at hequals
      obtain ⟨default, rfl⟩ := List.head?_eq_some_iff.mp hequals
      have hnone : ∀ b ∈ ([] : List Char), Text.isBlank b = true := by simp
      exact (beforeDefault_blanks hnone).2 default
    | bracket => cases hequals
  · generalize hopen : '[' :: (blanks ++ '=' :: after) = rest at h
    cases h with
    | word hne hfirst =>
      have hhead := congrArg List.head? hopen
      rw [List.head?_append_of_ne_nil _ hne] at hhead
      exact absurd hhead.symm hfirst
    | bracket =>
      obtain ⟨default, rfl⟩ := exists_default_of_append hblanks (List.cons.inj hopen).2.symm
      exact (beforeDefault_blanks hblanks).2 default
  · have hbalanced : Balanced (blanks ++ []) :=
      Balanced.nil.append_of_not_mem (not_mem_blanks hblanks rfl) (not_mem_blanks hblanks rfl)
    rw [List.append_nil] at hbalanced
    obtain rfl := h.unique (.bracket hbalanced)
    exact (beforeDefault_blanks hblanks).1

end HasName

/-- Every value that is read with a name has one type text and one rest, with a name at the head of
    the rest. The name of its descriptor is what that name says before its default, without white
    space at either end; it is empty exactly if the rest is headed by a name that says nothing. -/
theorem parse_subject [CharacterNames] (wanted : Wanted) (value : String) (d : Descriptor)
    (hwanted : wanted.name = true) (hparse : parse wanted value = .ok d) :
    ∃ type rest name subject,
      Headed wanted (Text.trim value.toList) type rest ∧ HasName rest name ∧
      d.subject = some subject ∧ subject.name = String.ofList (beforeDefault name) ∧
      Text.trimmed subject.name = subject.name ∧ (subject.name = "" ↔ Anonymous rest) := by
  obtain ⟨type, rest, h⟩ := exists_headed wanted (Text.trim value.toList)
  have hnamed : ¬ Unnamed wanted rest := by
    rw [parse] at hparse
    intro hunnamed
    rcases h.split_of_unnamed hunnamed with herror | herror <;> rw [herror] at hparse <;>
      cases hparse
  obtain ⟨clauses, hsplit, -, ⟨hnot, -⟩ | ⟨-, text, htext, hne, hhas⟩⟩ := h.split_of_named hnamed
  · exact absurd (hnot.symm.trans hwanted) Bool.false_ne_true
  have hrefine : refine clauses = .ok d := by simpa only [parse, hsplit] using hparse
  obtain ⟨subject, hsubject, hd⟩ := subject_of_refine hrefine htext hne
  have hname := name_of_subjectOf hsubject
  refine ⟨type, rest, bareName text, subject, h, hhas, hd, hname, ?_, ?_⟩
  · rw [hname, Text.trimmed, Text.onText, String.toList_ofList]
    exact congrArg String.ofList (Text.trimWith_trimWith ..)
  · rw [hname, String.ofList_eq_empty_iff]
    exact ⟨hhas.anonymous, hhas.beforeDefault_eq_nil⟩

/-- A name with white space around it and a default with brackets. -/
theorem parse_subject_spaced :
    let value := "\x7bnumber[]\x7d [ limit = [5, [6]] ] - at most"
    ∃ d, parse .all value = .ok d ∧ ∃ type rest name subject,
      Headed .all (Text.trim value.toList) type rest ∧ HasName rest name ∧
      d.subject = some subject ∧ subject.name = String.ofList (beforeDefault name) ∧
      Text.trimmed subject.name = subject.name ∧ (subject.name = "" ↔ Anonymous rest) := by
  intro value
  have hok : (parse .all value).isOk = true := by decide +kernel
  cases hparse : parse .all value with
  | error e =>
    rw [hparse] at hok
    cases hok
  | ok d => exact ⟨d, rfl, parse_subject .all value d rfl hparse⟩

/-- The name that a value is read with, if it is read with one. -/
def nameOf? [CharacterNames] (wanted : Wanted) (value : String) : Option String :=
  match parse wanted value with
  | .ok d => d.subject.map Subject.name
  | .error _ => none

/-- A default without a name, an empty pair of brackets and an equals sign are all read, with an
    empty name. -/
theorem parse_anonymous :
    nameOf? .all "\x7bnumber\x7d [=5] - the limit" = some "" ∧
      nameOf? .all "\x7bnumber\x7d [ ]" = some "" ∧
      nameOf? ⟨false, true, false⟩ "=5" = some "" := by
  decide +kernel

end DocGraph.Descriptor
