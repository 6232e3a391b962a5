import DocGraph.Proofs.Rule.Order

/-! Which rules take effect, and in which order.

    An evaluator can be made to keep a log of the rules that take effect (`Evaluator.logged`); it
    comes to the same otherwise (`ensureAll_logged`). In the log stand the names that have been
    applied, less those that were passed over (`effectsOf_eq`). So in a run that ends well every rule
    takes effect once, and behind the rules that it needs (`run_effects`). -/

namespace DocGraph.Rule

variable {σ ε : Type} {ev : Evaluator σ ε}

/-! ### Keeping a log -/

/-- A rule that writes its name down when it has taken effect. -/
def logged (name : String) (rule : Rule σ ε) : Rule (σ × List String) ε where
  needs := rule.needs
  effect := fun s => match rule.effect s.1 with
    | (state, none) => ((state, s.2 ++ [name]), none)
    | (state, some e) => ((state, s.2), some e)

/-- An evaluator with a log of the rules that take effect. -/
def Evaluator.logged (ev : Evaluator σ ε) : Evaluator (σ × List String) ε where
  rules := ev.rules.map fun r => (r.1, r.2.logged r.1)
  strict := ev.strict
  category := ev.category
  skip := fun name s => (ev.skip name s.1, s.2)

/-- The names of the rules that take effect when names are demanded in order, from the start. -/
def effectsOf (ev : Evaluator σ ε) (state : σ) (names : List String) : List String :=
  (ensureAll ev.logged [] names (.start (state, []))).1.state.2

theorem get?_logged (ev : Evaluator σ ε) (name : String) :
    Named.get? ev.logged.rules name = (Named.get? ev.rules name).map (Rule.logged name) :=
  Named.get?_map (fun n (rule : Rule σ ε) => rule.logged n) ev.rules

theorem mem_names_logged {name : String} : name ∈ ev.logged.rules.names ↔ name ∈ ev.rules.names := by
  rw [Named.mem_names_iff, Named.mem_names_iff, get?_logged]
  cases Named.get? ev.rules name <;> simp

/-- A situation with a log. -/
def Situation.withLog (s : Situation σ) (log : List String) : Situation (σ × List String) :=
  ⟨⟨(s.state, log), s.applied⟩, s.running⟩

/-- An evaluator with a log goes the way of the one without. -/
theorem Evaluates.logged {names : List String} {s t : Situation σ} {halt : Option (Halt ε)}
    (h : Evaluates ev names s t halt) (log : List String) :
    ∃ log', Evaluates ev.logged names (s.withLog log) (t.withLog log') halt := by
  have hget : ∀ {name : String} {rule : Rule σ ε}, Named.get? ev.rules name = some rule →
      Named.get? ev.logged.rules name = some (rule.logged name) := fun hrule => by
    rw [get?_logged, hrule]
    rfl
  have hnone : ∀ {name : String}, Named.get? ev.rules name = none →
      Named.get? ev.logged.rules name = none := fun hrule => by
    rw [get?_logged, hrule]
    rfl
  induction h generalizing log with
  | nil s => exact ⟨log, .nil _⟩
  | known hname _ ih =>
    obtain ⟨log', h⟩ := ih log
    exact ⟨log', .known hname h⟩
  | cycle happlied hrunning => exact ⟨log, .cycle happlied hrunning⟩
  | missing hnew hrule hstrict => exact ⟨log, .missing hnew (hnone hrule) hstrict⟩
  | skipped hnew hrule hstrict _ ih =>
    obtain ⟨log', h⟩ := ih log
    exact ⟨log', .skipped hnew (hnone hrule) hstrict h⟩
  | @halted _ _ s u _ _ hnew hrule _ ih =>
    obtain ⟨log', h⟩ := ih log
    exact ⟨log', .halted (s := s.withLog log) (u := u.withLog log') hnew (hget hrule) h⟩
  | @failed name _ s u rule state e hnew hrule _ heffect ih =>
    obtain ⟨log', h⟩ := ih log
    have heffect' : (rule.logged name).effect (u.state, log') = ((state, log'), some e) := by
      simp only [Rule.logged, heffect]
    exact ⟨log', .failed (s := s.withLog log) (u := u.withLog log') hnew (hget hrule) h heffect'⟩
  | @applied name _ _ u _ rule state _ hnew hrule _ heffect _ ihneeds ihrest =>
    obtain ⟨log', hneeds⟩ := ihneeds log
    have heffect' : (rule.logged name).effect (u.state, log') = ((state, log' ++ [name]), none) := by
      simp only [Rule.logged, heffect]
    obtain ⟨log'', hrest⟩ := ihrest (log' ++ [name])
    exact ⟨log'', .applied hnew (hget hrule) hneeds heffect' hrest⟩

/-- An evaluator with a log comes to the same, and to a log. -/
theorem ensureAll_logged {state : σ} {names : List String} {p : Progress σ} {halt : Option (Halt ε)}
    (h : ensureAll ev [] names (.start state) = (p, halt)) :
    ensureAll ev.logged [] names (.start (state, [])) =
      (⟨(p.state, effectsOf ev state names), p.applied⟩, halt) := by
  have heval : Evaluates ev names ⟨.start state, []⟩ ⟨p, []⟩ halt := evaluates_of_ensureAll h
  obtain ⟨log, hlogged⟩ := heval.logged []
  have heq := hlogged.ensureAll_eq
  have hlog : effectsOf ev state names = log :=
    congrArg (fun out : Progress (σ × List String) × Option (Halt ε) => out.1.state.2) heq
  rw [hlog]
  exact heq

/-! ### What stands in the log -/

/-- A step of an evaluator with a log, and what it does to the log. -/
inductive LoggedStep (ev : Evaluator σ ε) (p q : Progress (σ × List String)) : Prop
  /-- Passing a name over leaves the log alone. -/
  | skip {name : String} (hname : name ∉ ev.rules.names) (hstrict : ev.strict = false)
      (happlied : q.applied = p.applied ++ [name]) (hlog : q.state.2 = p.state.2)
  /-- A rule that takes effect is written down. -/
  | apply {name : String} (hname : name ∈ ev.rules.names)
      (happlied : q.applied = p.applied ++ [name]) (hlog : q.state.2 = p.state.2 ++ [name])
  /-- A rule that fails is not. -/
  | fail (happlied : q.applied = p.applied) (hlog : q.state.2 = p.state.2)

theorem Step.loggedStep {running : List String} {p q : Progress (σ × List String)}
    (h : Step ev.logged running p q) : LoggedStep ev p q := by
  cases h with
  | skip _ _ hrule hstrict =>
    refine .skip (fun hname => ?_) hstrict rfl rfl
    exact Named.not_mem_names_iff.mpr hrule (mem_names_logged.mpr hname)
  | apply _ _ hrule _ heffect =>
    refine .apply (mem_names_logged.mp (Named.mem_names_iff.mpr ⟨_, hrule⟩)) rfl ?_
    rw [get?_logged, Option.map_eq_some_iff] at hrule
    obtain ⟨rule, _, rfl⟩ := hrule
    simp only [Rule.logged] at heffect
    split at heffect
    · exact congrArg (fun out => out.1.2) heffect.symm
    · simp at heffect
  | fail hrule heffect =>
    refine .fail rfl ?_
    rw [get?_logged, Option.map_eq_some_iff] at hrule
    obtain ⟨rule, _, rfl⟩ := hrule
    simp only [Rule.logged] at heffect
    split at heffect
    · simp at heffect
    · exact congrArg (fun out => out.1.2) heffect.symm

/-- The log holds what has been applied, less what has been passed over. -/
def Kept (ev : Evaluator σ ε) (p : Progress (σ × List String)) : Prop :=
  p.state.2 = p.applied.filter (· ∈ ev.rules.names)

theorem LoggedStep.kept {p q : Progress (σ × List String)} (h : LoggedStep ev p q)
    (hp : Kept ev p) : Kept ev q := by
  rw [Kept] at hp ⊢
  cases h with
  | skip hname _ happlied hlog => simp [happlied, hlog, hp, hname]
  | apply hname happlied hlog => simp [happlied, hlog, hp, hname]
  | fail happlied hlog => rw [hlog, happlied, hp]

theorem Steps.kept {running : List String} {p q : Progress (σ × List String)}
    (h : Steps ev.logged running p q) (hp : Kept ev p) : Kept ev q := by
  induction h with
  | refl => exact hp
  | tail _ hstep ih => exact hstep.loggedStep.kept ih

/-- The rules that take effect are those that are applied, in their order. -/
theorem effectsOf_eq {state : σ} {names : List String} {p : Progress σ} {halt : Option (Halt ε)}
    (h : ensureAll ev [] names (.start state) = (p, halt)) :
    effectsOf ev state names = p.applied.filter (· ∈ ev.rules.names) := by
  have heval : Evaluates ev.logged names ⟨.start (state, []), []⟩
      ⟨⟨(p.state, effectsOf ev state names), p.applied⟩, []⟩ halt :=
    evaluates_of_ensureAll (ensureAll_logged h)
  exact heval.steps_and_applied.1.kept rfl

/-! ### Runs that end well -/

/-- Demanding names and then others goes on with the others unless it stops before. -/
theorem ensureAll_append (path rest : List String) : ∀ (names : List String) (p : Progress σ),
    ensureAll ev path (names ++ rest) p =
      match ensureAll ev path names p with
      | (m, some halt) => (m, some halt)
      | (m, none) => ensureAll ev path rest m
  | [], p => by
    rw [List.nil_append]
    simp only [ensureAll]
  | name :: names, p => by
    rw [List.cons_append, ensureAll, ensureAll]
    rcases ensure ev path name p with ⟨m, _ | halt⟩
    · exact ensureAll_append path rest names m
    · rfl

/-- Demanding names and then others ends well exactly if both do. -/
theorem ensureAll_append_iff {path rest names : List String} {p q : Progress σ} :
    ensureAll ev path (names ++ rest) p = (q, none) ↔
      ∃ m, ensureAll ev path names p = (m, none) ∧ ensureAll ev path rest m = (q, none) := by
  rw [ensureAll_append]
  rcases ensureAll ev path names p with ⟨m, _ | halt⟩ <;> simp

/-- Names without needs are applied one after the other. -/
theorem Evaluates.applied_eq {names : List String} {s t : Situation σ}
    {halt : Option (Halt ε)} (h : Evaluates ev names s t halt) (hnone : halt = none)
    (hnodup : names.Nodup) (hnew : ∀ name ∈ names, name ∉ s.applied)
    (hneeds : ∀ name ∈ names, ∀ need, ¬ Needs ev.rules name need) :
    t.applied = s.applied ++ names := by
  -- what is still to come stays new when a name in front of it is done with
  have hstill : ∀ {name : String} {rest applied : List String}, (name :: rest).Nodup →
      (∀ n ∈ name :: rest, n ∉ applied) → ∀ n ∈ rest, n ∉ applied ++ [name] := by
    intro name rest applied hnodup hnew n hn hmem
    rcases List.mem_append.mp hmem with hold | hlast
    · exact hnew n (List.mem_cons_of_mem name hn) hold
    · exact (List.nodup_cons.mp hnodup).1 (List.mem_singleton.mp hlast ▸ hn)
  induction h with
  | nil => rw [List.append_nil]
  | known hname => exact absurd hname (hnew _ List.mem_cons_self)
  | cycle | missing | halted | failed => exact absurd hnone (Option.some_ne_none _)
  | skipped _ _ _ _ ih =>
    have hrest := ih hnone (List.nodup_cons.mp hnodup).2 (hstill hnodup hnew)
      (List.forall_mem_cons.mp hneeds).2
    rw [hrest, Situation.toProgress_finish, List.append_assoc]
    rfl
  | @applied name _ s u _ rule _ _ _ hrule hneed _ _ _ ih =>
    have hnil : rule.needs = [] := List.eq_nil_iff_forall_not_mem.mpr fun need hmem =>
      hneeds name List.mem_cons_self need ⟨rule, hrule, hmem⟩
    rw [hnil] at hneed
    cases hneed
    have hrest := ih hnone (List.nodup_cons.mp hnodup).2 (hstill hnodup hnew)
      (List.forall_mem_cons.mp hneeds).2
    rw [hrest, Situation.toProgress_finish, List.append_assoc]
    rfl

section Runs

variable {state : σ} {demands : List String} {p q : Progress σ}

theorem settled_demands {halt : Option (Halt ε)}
    (h : ensureAll ev [] demands (.start state) = (p, halt)) : Settled ev.rules p.applied := by
  have heval : Evaluates ev demands ⟨.start state, []⟩ ⟨p, []⟩ halt := evaluates_of_ensureAll h
  exact heval.steps_and_applied.1.settled .nil

/-- Applied are the rules, the bootstrap names and all that was demanded or is needed. -/
theorem mem_applied_iff (hdemands : ensureAll ev [] demands (.start state) = (p, none))
    (hrun : run ev p = (q, none)) {name : String} :
    name ∈ q.applied ↔ name ∈ ev.rules.names ∨ name ∈ bootstrap ∨ name ∈ demands ∨
      ∃ other, Needs ev.rules other name := by
  have hfirst : Evaluates ev demands ⟨.start state, []⟩ ⟨p, []⟩ none :=
    evaluates_of_ensureAll hdemands
  have hthen : Evaluates ev (bootstrap ++ ev.rules.names) ⟨p, []⟩ ⟨q, []⟩ none :=
    evaluates_of_ensureAll hrun
  constructor
  · let P (n : String) := n ∈ ev.rules.names ∨ n ∈ bootstrap ∨ n ∈ demands ∨
      ∃ other, Needs ev.rules other n
    have hneeds : ∀ other need, Needs ev.rules other need → P need := fun other _ hneed =>
      Or.inr (Or.inr (Or.inr ⟨other, hneed⟩))
    have hp : ∀ n ∈ p.applied, P n := hfirst.forall_applied hneeds
      (fun n hn => Or.inr (Or.inr (Or.inl hn))) fun n hn => absurd hn List.not_mem_nil
    refine hthen.forall_applied hneeds (fun n hn => ?_) hp name
    rcases List.mem_append.mp hn with hboot | hrule
    · exact Or.inr (Or.inl hboot)
    · exact Or.inl hrule
  · obtain ⟨hsteps, hdone⟩ := hthen.steps_and_applied
    have hsettled := hsteps.settled (settled_demands hdemands)
    rintro (hrule | hboot | hdemand | ⟨other, hneed⟩)
    · exact hdone rfl name (List.mem_append_right _ hrule)
    · exact hdone rfl name (List.mem_append_left _ hboot)
    · exact hsteps.prefix_applied.subset (hfirst.steps_and_applied.2 rfl name hdemand)
    · exact hsettled.closed (hdone rfl other (List.mem_append_right _ hneed.mem_names)) hneed

/-- Without demands, bootstrap rules that need nothing are applied first. -/
theorem bootstrap_first (hrun : run ev (.start state) = (q, none))
    (hneeds : ∀ name ∈ bootstrap, ∀ need, ¬ Needs ev.rules name need) :
    bootstrap <+: q.applied := by
  obtain ⟨m, hboot, hrest⟩ := ensureAll_append_iff.mp hrun
  have hfirst : Evaluates ev bootstrap ⟨.start state, []⟩ ⟨m, []⟩ none :=
    evaluates_of_ensureAll hboot
  have hthen : Evaluates ev ev.rules.names ⟨m, []⟩ ⟨q, []⟩ none := evaluates_of_ensureAll hrest
  have happlied : m.applied = bootstrap :=
    hfirst.applied_eq rfl (by decide) (fun _ _ => List.not_mem_nil) hneeds
  rw [← happlied]
  exact hthen.steps_and_applied.1.prefix_applied

/-- In a run that ends well, whatever was demanded before it, every rule takes effect once, and
    behind the rules that it needs. Applied are the rules, the bootstrap names and all that was
    demanded or is needed, so the order of the demands does not matter for this. If nothing was
    demanded and the bootstrap rules need nothing, they take effect first. -/
theorem run_effects (ev : Evaluator σ ε) (state : σ) (demands : List String) {p q : Progress σ}
    (hdemands : ensureAll ev [] demands (.start state) = (p, none)) (hrun : run ev p = (q, none)) :
    let effects := effectsOf ev state (demands ++ (bootstrap ++ ev.rules.names))
    (∀ name, effects.count name = if name ∈ ev.rules.names then 1 else 0) ∧
      (∀ name need, Needs ev.rules name need → need ∈ ev.rules.names →
        List.Sublist [need, name] effects) ∧
      (∀ name, name ∈ q.applied ↔ name ∈ ev.rules.names ∨ name ∈ bootstrap ∨ name ∈ demands ∨
        ∃ other, Needs ev.rules other name) ∧
      (∀ state' demands' p' q', demands'.Perm demands →
        ensureAll ev [] demands' (.start state') = (p', none) → run ev p' = (q', none) →
        ∀ name, name ∈ q'.applied ↔ name ∈ q.applied) ∧
      (demands = [] → (∀ name ∈ bootstrap, ∀ need, ¬ Needs ev.rules name need) →
        bootstrap.filter (· ∈ ev.rules.names) <+: effects) := by
  have hall : ensureAll ev [] (demands ++ (bootstrap ++ ev.rules.names)) (.start state) =
      (q, none) := ensureAll_append_iff.mpr ⟨p, hdemands, hrun⟩
  have hsettled : Settled ev.rules q.applied := settled_demands hall
  have happlied : ∀ {name}, name ∈ ev.rules.names → name ∈ q.applied := fun hname =>
    (mem_applied_iff hdemands hrun).mpr (Or.inl hname)
  simp only [effectsOf_eq hall]
  refine ⟨fun name => ?_, fun name need hneed hdeclared => ?_,
    fun name => mem_applied_iff hdemands hrun, fun state' demands' p' q' hperm hd hr name => ?_,
    fun hnil hneeds => ?_⟩
  · rw [(hsettled.nodup.filter _).count]
    refine if_congr ?_ rfl rfl
    rw [List.mem_filter, decide_eq_true_iff]
    exact ⟨fun h => h.2, fun h => ⟨happlied h, h⟩⟩
  · have hbefore := (hsettled.before (happlied hneed.mem_names) hneed).filter
      (· ∈ ev.rules.names)
    simpa [hneed.mem_names, hdeclared] using hbefore
  · rw [mem_applied_iff hd hr, mem_applied_iff hdemands hrun, hperm.mem_iff]
  · subst hnil
    rw [ensureAll] at hdemands
    obtain ⟨rfl, _⟩ := Prod.mk.inj hdemands
    exact (bootstrap_first hrun hneeds).filter _

end Runs

/-- A rule that does nothing once it has what it needs. -/
def idle (needs : List String) : Rule Unit Empty := ⟨needs, fun s => (s, none)⟩

/-- Rules in an order in which none comes behind what it needs, and none for a qualifier. -/
def longnames : Evaluator Unit Empty where
  rules := [("longname", idle ["memberof", "name"]), ("memberof", idle ["file_path"]),
    ("name", idle []), ("file_path", idle []), ("kind", idle [])]
  strict := false
  category := "Class"
  skip := fun _ s => s

/-- A file path that only a need brings up takes effect once, and before what needs it. -/
theorem run_effects_longnames :
    ensureAll longnames [] ["longname"] (.start ()) =
        (⟨(), ["file_path", "memberof", "name", "longname"]⟩, none) ∧
      run longnames ⟨(), ["file_path", "memberof", "name", "longname"]⟩ =
        (⟨(), ["file_path", "memberof", "name", "longname", "kind", "qualifier"]⟩, none) ∧
      let effects := effectsOf longnames () (["longname"] ++ (bootstrap ++ longnames.rules.names))
      effects.count "file_path" = 1 ∧ List.Sublist ["file_path", "memberof"] effects := by
  have hdemands : ensureAll longnames [] ["longname"] (.start ()) =
      (⟨(), ["file_path", "memberof", "name", "longname"]⟩, none) := by decide +kernel
  have hrun : run longnames ⟨(), ["file_path", "memberof", "name", "longname"]⟩ =
      (⟨(), ["file_path", "memberof", "name", "longname", "kind", "qualifier"]⟩, none) := by decide +kernel
  obtain ⟨hcount, hbefore, _⟩ := run_effects longnames () ["longname"] hdemands hrun
  exact ⟨hdemands, hrun, hcount "file_path",
    hbefore "memberof" "file_path" ⟨idle ["file_path"], rfl, List.mem_cons_self⟩ (by decide)⟩

end DocGraph.Rule
