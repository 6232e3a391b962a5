import Mathlib.Data.List.Chain
import DocGraph.Proofs.Rule.Effects

/-! Why evaluation stops.

    The names in the error for a cycle lead from need to need, and the last of them comes up before
    (`Repeating`): the stack is such a path at every moment. An error for a missing rule names one
    that was demanded or is needed. With what a run that ends well has applied, this says when a run
    ends with which error (`run_halts`), also after demands that have failed. -/

namespace DocGraph.Rule

open Relation

variable {σ ε : Type} {ev : Evaluator σ ε} {rules : Registry σ ε}

/-! ### Cycles -/

/-- A path along needs whose last name comes up before. -/
def Repeating (rules : Registry σ ε) (path : List String) : Prop :=
  path.IsChain (Needs rules) ∧ ∃ front last, path = front ++ [last] ∧ last ∈ front

theorem Repeating.cyclic {path : List String} (h : Repeating rules path) : Cyclic rules := by
  obtain ⟨hchain, front, last, rfl, hmem⟩ := h
  obtain ⟨before, between, rfl⟩ := List.append_of_mem hmem
  rw [List.append_assoc] at hchain
  obtain ⟨hfrom, _, hback⟩ := List.isChain_append.mp hchain.right_of_append
  have hreach := List.relationReflTransGen_of_exists_isChain _ hfrom (List.cons_ne_nil _ _)
  exact ⟨last, TransGen.tail' hreach (hback _ (List.getLast?_eq_some_getLast _) last rfl)⟩

/-- The error for a cycle names a path along needs, if the stack is one and the last rule on it needs
    what is demanded. -/
theorem Evaluates.repeating {names path : List String} {s t : Situation σ}
    {halt : Option (Halt ε)} (h : Evaluates ev names s t halt) (hhalt : halt = some (.cycle path))
    (hstack : s.running.IsChain (Needs ev.rules))
    (hneeded : ∀ name ∈ names, ∀ last ∈ s.running.getLast?, Needs ev.rules last name) :
    Repeating ev.rules path := by
  induction h with
  | nil => cases hhalt
  | known _ _ ih => exact ih hhalt hstack (List.forall_mem_cons.mp hneeded).2
  | @cycle name _ s _ hrunning =>
    obtain rfl : s.running ++ [name] = path := by simpa using hhalt
    refine ⟨hstack.append (List.isChain_singleton name) fun last hlast next hnext => ?_, s.running,
      name, rfl, hrunning⟩
    obtain rfl : name = next := by simpa using hnext
    exact hneeded name List.mem_cons_self last hlast
  | missing | failed => cases hhalt
  | skipped _ _ _ _ ih => exact ih hhalt hstack (List.forall_mem_cons.mp hneeded).2
  | @halted name _ s _ rule _ _ hrule _ ih =>
    refine ih hhalt (hstack.append (List.isChain_singleton name) fun last hlast next hnext => ?_)
      fun need hneed last hlast => ?_
    · obtain rfl : name = next := by simpa using hnext
      exact hneeded name List.mem_cons_self last hlast
    · obtain rfl : name = last := by simpa using hlast
      exact ⟨rule, hrule, hneed⟩
  | applied _ _ hneeds _ _ _ ih =>
    rw [hneeds.running_after] at ih
    exact ih hhalt hstack (List.forall_mem_cons.mp hneeded).2

/-- Whatever is demanded while no rule waits, the error for a cycle names a path along needs. -/
theorem ensureAll_repeating {names path : List String} {p : Progress σ}
    (h : (ensureAll ev [] names p).2 = some (.cycle path)) : Repeating ev.rules path := by
  have heval : Evaluates ev names ⟨p, []⟩ ⟨(ensureAll ev [] names p).1, []⟩
      (ensureAll ev [] names p).2 := evaluates_of_ensureAll rfl
  exact heval.repeating h .nil fun _ _ _ hlast => by cases hlast

/-! ### Missing rules -/

/-- A name that a run comes upon has no rule. -/
def Incomplete (rules : Registry σ ε) : Prop :=
  ∃ name, name ∉ rules.names ∧ (name ∈ bootstrap ∨ ∃ other, Needs rules other name)

/-- The error for a missing rule names one that is missing, and that was demanded or is needed. -/
theorem Evaluates.undeclared {P : String → Prop} {names : List String} {s t : Situation σ}
    {halt : Option (Halt ε)} {name category : String} (h : Evaluates ev names s t halt)
    (hhalt : halt = some (.undeclared name category))
    (hneeds : ∀ name need, Needs ev.rules name need → P need) (hnames : ∀ name ∈ names, P name) :
    ev.strict = true ∧ category = ev.category ∧ name ∉ ev.rules.names ∧ P name := by
  induction h with
  | nil => cases hhalt
  | cycle | failed => cases hhalt
  | known _ _ ih => exact ih hhalt (List.forall_mem_cons.mp hnames).2
  | missing _ hrule hstrict =>
    obtain ⟨rfl, rfl⟩ : _ = name ∧ _ = category := by simpa using hhalt
    exact ⟨hstrict, rfl, Named.not_mem_names_iff.mpr hrule, hnames _ List.mem_cons_self⟩
  | skipped _ _ _ _ ih => exact ih hhalt (List.forall_mem_cons.mp hnames).2
  | halted _ hrule _ ih => exact ih hhalt fun need hmem => hneeds _ need ⟨_, hrule, hmem⟩
  | applied _ _ _ _ _ _ ih => exact ih hhalt (List.forall_mem_cons.mp hnames).2

/-- With a rule for every name that comes up, being strict makes no difference. -/
theorem Evaluates.withStrict {names : List String} {s t : Situation σ} {halt : Option (Halt ε)}
    (h : Evaluates ev names s t halt) (strict : Bool)
    (hneeds : ∀ name need, Needs ev.rules name need → need ∈ ev.rules.names)
    (hnames : ∀ name ∈ names, name ∈ ev.rules.names) :
    Evaluates { ev with strict := strict } names s t halt := by
  -- no name without a rule is demanded
  have hdeclared : ∀ {name : String} {rest : List String},
      (∀ n ∈ name :: rest, n ∈ ev.rules.names) → Named.get? ev.rules name ≠ none :=
    fun hall hnone => Named.not_mem_names_iff.mpr hnone (hall _ List.mem_cons_self)
  have hneeded : ∀ {name : String} {rule : Rule σ ε}, Named.get? ev.rules name = some rule →
      ∀ need ∈ rule.needs, need ∈ ev.rules.names :=
    fun hrule need hneed => hneeds _ need ⟨_, hrule, hneed⟩
  induction h with
  | nil s => exact .nil s
  | known hname _ ih => exact .known hname (ih (List.forall_mem_cons.mp hnames).2)
  | cycle happlied hrunning => exact .cycle happlied hrunning
  | missing _ hrule | skipped _ hrule => exact absurd hrule (hdeclared hnames)
  | halted hnew hrule _ ih => exact .halted hnew hrule (ih (hneeded hrule))
  | failed hnew hrule _ heffect ih => exact .failed hnew hrule (ih (hneeded hrule)) heffect
  | applied hnew hrule _ heffect _ ihneeds ihrest =>
    exact .applied hnew hrule (ihneeds (hneeded hrule)) heffect
      (ihrest (List.forall_mem_cons.mp hnames).2)

/-! ### Failed demands -/

/-- Demands one after the other, each made whether or not those before it failed. -/
def attempts (ev : Evaluator σ ε) (names : List String) (p : Progress σ) : Progress σ :=
  names.foldl (fun p name => (ensure ev [] name p).1) p

/-- Evaluating one name is demanding it, with the same rules waiting before and after. -/
theorem evaluates_singleton_iff {name : String} {s t : Situation σ} {halt : Option (Halt ε)} :
    Evaluates ev [name] s t halt ↔
      ensure ev s.running name s.toProgress = (t.toProgress, halt) ∧ t.running = s.running := by
  have hsingle : ensureAll ev s.running [name] s.toProgress =
      ensure ev s.running name s.toProgress := by
    rw [ensureAll]
    rcases ensure ev s.running name s.toProgress with ⟨q, _ | halt⟩
    · simp only [ensureAll]
    · rfl
  rw [← hsingle]
  constructor
  · intro h
    exact ⟨h.ensureAll_eq, h.running_eq⟩
  · rintro ⟨h, hrunning⟩
    refine evaluates_iff.mpr ⟨?_, by rw [h]⟩
    rw [h, ← hrunning]

theorem steps_ensure (ev : Evaluator σ ε) (path : List String) (name : String) (p : Progress σ) :
    Steps ev path p (ensure ev path name p).1 := by
  have heval : Evaluates ev [name] ⟨p, path⟩ ⟨(ensure ev path name p).1, path⟩
      (ensure ev path name p).2 := evaluates_singleton_iff.mpr ⟨rfl, rfl⟩
  exact heval.steps_and_applied.1

theorem steps_attempts (ev : Evaluator σ ε) : ∀ (names : List String) (p : Progress σ),
    Steps ev [] p (attempts ev names p)
  | [], _ => .refl
  | name :: names, p =>
    (steps_ensure ev [] name p).trans (steps_attempts ev names (ensure ev [] name p).1)

/-- Every applied name has a rule that has taken effect, or none and was passed over. -/
def Accounted (ev : Evaluator σ ε) (p : Progress (σ × List String)) : Prop :=
  ∀ name ∈ p.applied, name ∈ p.state.2 ∨ name ∉ ev.rules.names ∧ ev.strict = false

theorem LoggedStep.accounted {p q : Progress (σ × List String)} (h : LoggedStep ev p q)
    (hp : Accounted ev p) : Accounted ev q := by
  rw [Accounted] at hp ⊢
  cases h with
  | skip hname hstrict happlied hlog =>
    rw [happlied, hlog]
    exact List.forall_mem_append.mpr ⟨hp, List.forall_mem_singleton.mpr (Or.inr ⟨hname, hstrict⟩)⟩
  | @apply name hname happlied hlog =>
    rw [happlied, hlog]
    refine List.forall_mem_append.mpr ⟨fun n hn => ?_, List.forall_mem_singleton.mpr (Or.inl ?_)⟩
    · exact (hp n hn).imp_left (List.mem_append_left _)
    · exact List.mem_append_right _ (List.mem_singleton_self name)
  | fail happlied hlog => rwa [happlied, hlog]

theorem Steps.accounted {running : List String} {p q : Progress (σ × List String)}
    (h : Steps ev.logged running p q) (hp : Accounted ev p) : Accounted ev q := by
  induction h with
  | refl => exact hp
  | tail _ hstep ih => exact hstep.loggedStep.accounted ih

/-! ### Runs -/

section Runs

variable {p : Progress σ}

theorem cyclic_of_run {path : List String} (h : (run ev p).2 = some (.cycle path)) :
    Cyclic ev.rules :=
  (ensureAll_repeating h).cyclic

theorem incomplete_of_run {name category : String}
    (h : (run ev p).2 = some (.undeclared name category)) :
    ev.strict = true ∧ category = ev.category ∧ Incomplete ev.rules := by
  let P (n : String) := n ∈ ev.rules.names ∨ n ∈ bootstrap ∨ ∃ other, Needs ev.rules other n
  have hneeds : ∀ other need, Needs ev.rules other need → P need := fun other _ hneed =>
    Or.inr (Or.inr ⟨other, hneed⟩)
  have hnames : ∀ n ∈ bootstrap ++ ev.rules.names, P n := fun n hn =>
    (List.mem_append.mp hn).elim (fun hboot => Or.inr (Or.inl hboot)) Or.inl
  obtain ⟨hstrict, hcategory, hname, hP⟩ := (evaluates_run ev p).undeclared h hneeds hnames
  exact ⟨hstrict, hcategory, name, hname, hP.resolve_left hname⟩

theorem run_withStrict (hcomplete : ¬ Incomplete ev.rules) (strict : Bool) (p : Progress σ) :
    run { ev with strict := strict } p = run ev p := by
  have hneeds : ∀ name need, Needs ev.rules name need → need ∈ ev.rules.names :=
    fun name need hneed => not_not.mp fun hnot => hcomplete ⟨need, hnot, Or.inr ⟨name, hneed⟩⟩
  have hnames : ∀ name ∈ bootstrap ++ ev.rules.names, name ∈ ev.rules.names := by
    intro name hname
    rcases List.mem_append.mp hname with hboot | hrule
    · exact not_not.mp fun hnot => hcomplete ⟨name, hnot, Or.inl hboot⟩
    · exact hrule
  have heval := (evaluates_run ev p).withStrict strict hneeds hnames
  exact heval.ensureAll_eq

/-- A strict run that ends well has found a rule for every name. -/
theorem not_incomplete_of_run (hstrict : ev.strict = true) (hp : Settled ev.rules p.applied)
    (hdeclared : ∀ name ∈ p.applied, name ∈ ev.rules.names) (h : (run ev p).2 = none) :
    ¬ Incomplete ev.rules := by
  have hall := (evaluates_run ev p).steps_and_applied.1.mem_names_of_strict hstrict hdeclared
  rintro ⟨name, hname, hboot | ⟨other, hneed⟩⟩
  · exact hname (hall name (mem_applied_of_run h (List.mem_append_left _ hboot)))
  · exact hname (hall name (needed_mem_applied_of_run hp h hneed))

/-- A lenient run in which no effect fails stops exactly if needs lead back to a rule. -/
theorem run_of_lenient (hlenient : ev.strict = false) (hp : Settled ev.rules p.applied)
    (hfail : ∀ e, (run ev p).2 ≠ some (.failed e)) :
    ((run ev p).2 = none ↔ ¬ Cyclic ev.rules) ∧
      (Cyclic ev.rules → ∃ path, (run ev p).2 = some (.cycle path)) := by
  cases hhalt : (run ev p).2 with
  | none =>
    have hacyclic := not_cyclic_of_run hp hhalt
    exact ⟨⟨fun _ => hacyclic, fun _ => rfl⟩, fun hcyclic => absurd hcyclic hacyclic⟩
  | some halt =>
    cases halt with
    | cycle path =>
      exact ⟨⟨fun h => (by cases h), fun h => absurd (cyclic_of_run hhalt) h⟩, fun _ => ⟨path, rfl⟩⟩
    | undeclared name category =>
      exact absurd ((incomplete_of_run hhalt).1.symm.trans hlenient) (by decide)
    | failed e => exact absurd hhalt (hfail e)

/-- A strict run in which no effect fails stops for a missing rule exactly if one is missing, unless
    needs lead back to a rule. Then it stops in any case, for this or for that. -/
theorem run_of_strict (hstrict : ev.strict = true) (hp : Settled ev.rules p.applied)
    (hdeclared : ∀ name ∈ p.applied, name ∈ ev.rules.names)
    (hfail : ∀ e, (run ev p).2 ≠ some (.failed e)) :
    (¬ Cyclic ev.rules → ((run ev p).2 = none ↔ ¬ Incomplete ev.rules) ∧
      (Incomplete ev.rules → ∃ name, (run ev p).2 = some (.undeclared name ev.category))) ∧
    (Cyclic ev.rules → (∃ path, (run ev p).2 = some (.cycle path)) ∨
      ∃ name, (run ev p).2 = some (.undeclared name ev.category)) := by
  cases hhalt : (run ev p).2 with
  | none =>
    have hcomplete := not_incomplete_of_run hstrict hp hdeclared hhalt
    refine ⟨fun _ => ⟨⟨fun _ => hcomplete, fun _ => rfl⟩, fun h => absurd h hcomplete⟩, fun h => ?_⟩
    exact absurd h (not_cyclic_of_run hp hhalt)
  | some halt =>
    cases halt with
    | cycle path =>
      exact ⟨fun h => absurd (cyclic_of_run hhalt) h, fun _ => Or.inl ⟨path, rfl⟩⟩
    | undeclared name category =>
      obtain ⟨_, rfl, hmissing⟩ := incomplete_of_run hhalt
      exact ⟨fun _ => ⟨⟨fun h => (by cases h), fun h => absurd hmissing h⟩, fun _ => ⟨name, rfl⟩⟩,
        fun _ => Or.inr ⟨name, rfl⟩⟩
    | failed e => exact absurd hhalt (hfail e)

/-- Every run ends, whatever was demanded before it and however that went. If no effect fails, a
    lenient run stops exactly if needs lead back to a rule; a strict one stops for a missing rule
    exactly if one is missing, and for one of the two reasons if needs lead back to a rule. The names
    in the error for a cycle lead from need to need, and the last comes up before. A demand that
    fails leaves the stack as it was, and only names as applied whose rules have taken effect or that
    were passed over. -/
theorem run_halts (ev : Evaluator σ ε) (state : σ) (demands : List String) :
    let p := attempts ev demands (.start state)
    let halt := (run ev p).2
    (∀ t h, Evaluates ev (bootstrap ++ ev.rules.names) ⟨p, []⟩ t h ↔
        t = ⟨(run ev p).1, []⟩ ∧ h = halt) ∧
      ((∀ e, halt ≠ some (.failed e)) → ev.strict = false →
        (halt = none ↔ ¬ Cyclic ev.rules) ∧
          (Cyclic ev.rules → ∃ path, halt = some (.cycle path))) ∧
      ((∀ e, halt ≠ some (.failed e)) → ev.strict = true →
        (¬ Cyclic ev.rules → (halt = none ↔ ¬ Incomplete ev.rules) ∧
          (Incomplete ev.rules → ∃ name, halt = some (.undeclared name ev.category))) ∧
        (Cyclic ev.rules → (∃ path, halt = some (.cycle path)) ∨
          ∃ name, halt = some (.undeclared name ev.category))) ∧
      (∀ names q path, (ensureAll ev [] names q).2 = some (.cycle path) →
        Repeating ev.rules path) ∧
      (∀ name s t h, Evaluates ev [name] s t (some h) ↔
        ensure ev s.running name s.toProgress = (t.toProgress, some h) ∧ t.running = s.running) ∧
      (∀ name s t h, Evaluates ev.logged [name] s t (some h) → Accounted ev s.toProgress →
        Accounted ev t.toProgress) ∧
      Accounted ev (attempts ev.logged demands (.start (state, []))) := by
  intro p halt
  have hsteps : Steps ev [] (.start state) p := steps_attempts ev demands _
  have hp : Settled ev.rules p.applied := hsteps.settled .nil
  refine ⟨fun t h => ?_, fun hfail hlenient => run_of_lenient hlenient hp hfail,
    fun hfail hstrict => run_of_strict hstrict hp ?_ hfail,
    fun names q path hcycle => ensureAll_repeating hcycle,
    fun name s t h => evaluates_singleton_iff,
    fun name s t h hfailed => hfailed.steps_and_applied.1.accounted, ?_⟩
  · exact evaluates_iff
  · exact hsteps.mem_names_of_strict hstrict fun _ hmem => absurd hmem List.not_mem_nil
  · exact (steps_attempts ev.logged demands _).accounted fun _ hmem => absurd hmem List.not_mem_nil

end Runs

/-- Two rules that need each other. -/
def circular : Evaluator Unit Empty where
  rules := [("first", idle ["second"]), ("second", idle ["first"])]
  strict := false
  category := "Class"
  skip := fun _ s => s

/-- They stop a run, with a path from the first back to it. -/
theorem run_halts_circular :
    (run circular (.start ())).2 = some (.cycle ["first", "second", "first"]) ∧
      Repeating circular.rules ["first", "second", "first"] := by
  have hhalt : (run circular (.start ())).2 = some (.cycle ["first", "second", "first"]) := by decide +kernel
  obtain ⟨_, _, _, hrepeating, _⟩ := run_halts circular () []
  exact ⟨hhalt, hrepeating _ _ _ hhalt⟩

end DocGraph.Rule
