import Mathlib.Logic.Relation
import DocGraph.Rule.Evaluator

/-! Evaluation, with the stack of running rules in the open.

    `Evaluates` says by rules what demanding names one after the other comes to: a rule is put on the
    stack before its needs are demanded, and taken off when they have been met or have failed. Its
    derivations are finite, and there is exactly one for each situation, the one that `ensureAll`
    follows (`evaluates_iff`). So evaluation ends, and it leaves the stack as it was
    (`Evaluates.running_eq`).

    All that happens to the progress on the way is one of three steps (`Evaluates.steps`): a name
    without a rule is passed over, a rule is applied whose needs have all been applied, or an effect
    fails. What each step keeps, every evaluation keeps. -/

namespace DocGraph.Rule

variable {σ ε : Type} {ev : Evaluator σ ε}

/-- How far evaluation has come, and the rules that wait for their needs, the innermost last. -/
structure Situation (σ : Type) extends Progress σ where
  running : List String

namespace Situation

/-- A rule is put on the stack. -/
def enter (s : Situation σ) (name : String) : Situation σ :=
  { s with running := s.running ++ [name] }

/-- The innermost rule is taken off the stack. -/
def leave (s : Situation σ) : Situation σ := { s with running := s.running.dropLast }

/-- An effect, or passing over a name, changes the state. -/
def become (s : Situation σ) (state : σ) : Situation σ := { s with state := state }

/-- A name is done with. -/
def finish (s : Situation σ) (name : String) : Situation σ :=
  { s with applied := s.applied ++ [name] }

@[simp] theorem toProgress_enter (s : Situation σ) (name : String) :
    (s.enter name).toProgress = s.toProgress := rfl

@[simp] theorem running_enter (s : Situation σ) (name : String) :
    (s.enter name).running = s.running ++ [name] := rfl

@[simp] theorem toProgress_leave (s : Situation σ) : s.leave.toProgress = s.toProgress := rfl

@[simp] theorem running_leave (s : Situation σ) : s.leave.running = s.running.dropLast := rfl

@[simp] theorem toProgress_become (s : Situation σ) (state : σ) :
    (s.become state).toProgress = ⟨state, s.applied⟩ := rfl

@[simp] theorem running_become (s : Situation σ) (state : σ) :
    (s.become state).running = s.running := rfl

@[simp] theorem toProgress_finish (s : Situation σ) (name : String) :
    (s.finish name).toProgress = ⟨s.state, s.applied ++ [name]⟩ := rfl

@[simp] theorem running_finish (s : Situation σ) (name : String) :
    (s.finish name).running = s.running := rfl

/-- A name that is neither done with nor waiting. -/
def IsNew (s : Situation σ) (name : String) : Prop := name ∉ s.applied ∧ name ∉ s.running

end Situation

/-- Demanding names in order, in a situation, leads to another one, and ends for a reason or
    well. -/
inductive Evaluates (ev : Evaluator σ ε) :
    List String → Situation σ → Situation σ → Option (Halt ε) → Prop
  | nil (s : Situation σ) : Evaluates ev [] s s none
  /-- The name is done with already. -/
  | known {name : String} {rest : List String} {s t : Situation σ} {halt : Option (Halt ε)}
      (hname : name ∈ s.applied) (hrest : Evaluates ev rest s t halt) :
      Evaluates ev (name :: rest) s t halt
  /-- The rule waits for its own needs. -/
  | cycle {name : String} {rest : List String} {s : Situation σ}
      (happlied : name ∉ s.applied) (hrunning : name ∈ s.running) :
      Evaluates ev (name :: rest) s s (some (.cycle (s.running ++ [name])))
  /-- A strict evaluator takes a name without a rule for an error. -/
  | missing {name : String} {rest : List String} {s : Situation σ} (hnew : s.IsNew name)
      (hrule : Named.get? ev.rules name = none) (hstrict : ev.strict = true) :
      Evaluates ev (name :: rest) s s (some (.undeclared name ev.category))
  /-- A lenient evaluator passes it over. -/
  | skipped {name : String} {rest : List String} {s t : Situation σ} {halt : Option (Halt ε)}
      (hnew : s.IsNew name) (hrule : Named.get? ev.rules name = none) (hstrict : ev.strict = false)
      (hrest : Evaluates ev rest ((s.become (ev.skip name s.state)).finish name) t halt) :
      Evaluates ev (name :: rest) s t halt
  /-- A need fails. -/
  | halted {name : String} {rest : List String} {s u : Situation σ} {rule : Rule σ ε}
      {halt : Halt ε} (hnew : s.IsNew name) (hrule : Named.get? ev.rules name = some rule)
      (hneeds : Evaluates ev rule.needs (s.enter name) u (some halt)) :
      Evaluates ev (name :: rest) s u.leave (some halt)
  /-- The needs are met, and the effect fails. -/
  | failed {name : String} {rest : List String} {s u : Situation σ} {rule : Rule σ ε} {state : σ}
      {e : ε} (hnew : s.IsNew name) (hrule : Named.get? ev.rules name = some rule)
      (hneeds : Evaluates ev rule.needs (s.enter name) u none)
      (heffect : rule.effect u.state = (state, some e)) :
      Evaluates ev (name :: rest) s (u.become state).leave (some (.failed e))
  /-- The needs are met, and the effect takes place. -/
  | applied {name : String} {rest : List String} {s u t : Situation σ} {rule : Rule σ ε} {state : σ}
      {halt : Option (Halt ε)} (hnew : s.IsNew name)
      (hrule : Named.get? ev.rules name = some rule)
      (hneeds : Evaluates ev rule.needs (s.enter name) u none)
      (heffect : rule.effect u.state = (state, none))
      (hrest : Evaluates ev rest ((u.become state).leave.finish name) t halt) :
      Evaluates ev (name :: rest) s t halt

/-! ### The stack -/

/-- However evaluation ends, the stack is what it was. -/
theorem Evaluates.running_eq {names : List String} {s t : Situation σ} {halt : Option (Halt ε)}
    (h : Evaluates ev names s t halt) : t.running = s.running := by
  induction h with
  | nil | cycle | missing => rfl
  | known _ _ ih => exact ih
  | skipped _ _ _ _ ih => exact ih
  | halted _ _ _ ih => simp [ih]
  | failed _ _ _ _ ih => simp [ih]
  | applied _ _ _ _ _ ihneeds ihrest => simp [ihrest, ihneeds]

/-- The demands behind a rule find the stack as it was when the rule was put on it. -/
theorem Evaluates.running_after {names : List String} {name : String} {s u : Situation σ}
    {halt : Option (Halt ε)} (h : Evaluates ev names (s.enter name) u halt) (state : σ) :
    ((u.become state).leave.finish name).running = s.running := by
  simp [h.running_eq]

/-! ### Exactly one derivation -/

section Demand

variable {path : List String} {name : String} {p : Progress σ}

theorem ensure_of_applied (h : name ∈ p.applied) : ensure ev path name p = (p, none) := by
  rw [ensure, if_pos (by simpa using h)]

theorem ensure_of_running (h : name ∉ p.applied) (hr : name ∈ path) :
    ensure ev path name p = (p, some (.cycle (path ++ [name]))) := by
  rw [ensure, if_neg (by simpa using h), dif_pos (by simpa using hr)]

theorem ensure_of_missing (h : name ∉ p.applied) (hr : name ∉ path)
    (hrule : Named.get? ev.rules name = none) :
    ensure ev path name p =
      if ev.strict then (p, some (.undeclared name ev.category))
      else (⟨ev.skip name p.state, p.applied ++ [name]⟩, none) := by
  rw [ensure, if_neg (by simpa using h), dif_neg (by simpa using hr)]
  split
  · rfl
  · next hsome => rw [hrule] at hsome; cases hsome

theorem ensure_of_rule {rule : Rule σ ε} (h : name ∉ p.applied) (hr : name ∉ path)
    (hrule : Named.get? ev.rules name = some rule) :
    ensure ev path name p =
      match ensureAll ev (path ++ [name]) rule.needs p with
      | (q, some halt) => (q, some halt)
      | (q, none) =>
        match rule.effect q.state with
        | (state, some e) => (⟨state, q.applied⟩, some (.failed e))
        | (state, none) => (⟨state, q.applied ++ [name]⟩, none) := by
  rw [ensure, if_neg (by simpa using h), dif_neg (by simpa using hr)]
  split
  · next hnone => rw [hrule] at hnone; cases hnone
  · next hsome =>
    obtain rfl := Option.some.inj (hrule.symm.trans hsome)
    rfl

end Demand

/-- Evaluation ends: each nested demand puts a rule on the stack that is not on it, and the demands
    behind it find the stack as it was. -/
theorem exists_evaluates (ev : Evaluator σ ε) : ∀ (names : List String) (s : Situation σ),
    ∃ t halt, Evaluates ev names s t halt
  | [], s => ⟨s, none, .nil s⟩
  | name :: rest, s => by
    by_cases happlied : name ∈ s.applied
    · obtain ⟨t, halt, h⟩ := exists_evaluates ev rest s
      exact ⟨t, halt, .known happlied h⟩
    by_cases hrunning : name ∈ s.running
    · exact ⟨s, _, .cycle happlied hrunning⟩
    have hnew : s.IsNew name := ⟨happlied, hrunning⟩
    cases hrule : Named.get? ev.rules name with
    | none =>
      cases hstrict : ev.strict with
      | true => exact ⟨s, _, .missing hnew hrule hstrict⟩
      | false =>
        obtain ⟨t, halt, h⟩ :=
          exists_evaluates ev rest ((s.become (ev.skip name s.state)).finish name)
        exact ⟨t, halt, .skipped hnew hrule hstrict h⟩
    | some rule =>
      obtain ⟨u, _ | halt, hneeds⟩ := exists_evaluates ev rule.needs (s.enter name)
      · rcases heffect : rule.effect u.state with ⟨state, _ | e⟩
        · obtain ⟨t, halt, h⟩ := exists_evaluates ev rest ((u.become state).leave.finish name)
          exact ⟨t, halt, .applied hnew hrule hneeds heffect h⟩
        · exact ⟨_, _, .failed hnew hrule hneeds heffect⟩
      · exact ⟨_, _, .halted hnew hrule hneeds⟩
termination_by names s => (waiting ev.rules s.running, names.length)
decreasing_by
  · exact Prod.Lex.right _ (Nat.lt_succ_self _)
  · exact Prod.Lex.right _ (Nat.lt_succ_self _)
  · exact Prod.Lex.left _ _ (waiting_append_lt hrule (by simpa using hrunning))
  · rw [hneeds.running_after state]
    exact Prod.Lex.right _ (Nat.lt_succ_self _)

/-- What demanding names comes to is what `ensureAll` computes. -/
theorem Evaluates.ensureAll_eq {names : List String} {s t : Situation σ} {halt : Option (Halt ε)}
    (h : Evaluates ev names s t halt) :
    ensureAll ev s.running names s.toProgress = (t.toProgress, halt) := by
  induction h with
  | nil => rw [ensureAll]
  | known hname _ ih =>
    rw [ensureAll, ensure_of_applied hname]
    exact ih
  | cycle happlied hrunning => rw [ensureAll, ensure_of_running happlied hrunning]
  | missing hnew hrule hstrict =>
    rw [ensureAll, ensure_of_missing hnew.1 hnew.2 hrule, if_pos hstrict]
  | skipped hnew hrule hstrict _ ih =>
    rw [ensureAll, ensure_of_missing hnew.1 hnew.2 hrule, hstrict, if_neg Bool.false_ne_true]
    exact ih
  | halted hnew hrule _ ih =>
    rw [Situation.running_enter, Situation.toProgress_enter] at ih
    rw [ensureAll, ensure_of_rule hnew.1 hnew.2 hrule, ih]
    rfl
  | failed hnew hrule _ heffect ih =>
    rw [Situation.running_enter, Situation.toProgress_enter] at ih
    simp only [ensureAll, ensure_of_rule hnew.1 hnew.2 hrule, ih, heffect]
    rfl
  | applied hnew hrule hneeds heffect _ ihneeds ihrest =>
    rw [Situation.running_enter, Situation.toProgress_enter] at ihneeds
    rw [hneeds.running_after] at ihrest
    simp only [ensureAll, ensure_of_rule hnew.1 hnew.2 hrule, ihneeds, heffect]
    exact ihrest

/-- What `ensureAll` computes has a derivation. -/
theorem evaluates_of_ensureAll {path names : List String} {p q : Progress σ}
    {halt : Option (Halt ε)} (h : ensureAll ev path names p = (q, halt)) :
    Evaluates ev names ⟨p, path⟩ ⟨q, path⟩ halt := by
  obtain ⟨⟨q', path'⟩, halt', heval⟩ := exists_evaluates ev names ⟨p, path⟩
  obtain ⟨rfl, rfl⟩ := Prod.mk.inj (h.symm.trans heval.ensureAll_eq)
  obtain rfl : path' = path := heval.running_eq
  exact heval

/-- Demanding names comes to what `ensureAll` computes, and to nothing else. -/
theorem evaluates_iff {names : List String} {s t : Situation σ} {halt : Option (Halt ε)} :
    Evaluates ev names s t halt ↔
      t = ⟨(ensureAll ev s.running names s.toProgress).1, s.running⟩ ∧
        halt = (ensureAll ev s.running names s.toProgress).2 := by
  constructor
  · intro h
    rw [h.ensureAll_eq, ← h.running_eq]
    exact ⟨rfl, rfl⟩
  · rintro ⟨rfl, rfl⟩
    exact evaluates_of_ensureAll rfl

/-! ### Steps -/

/-- What can happen to the progress while the rules of `running` wait. -/
inductive Step (ev : Evaluator σ ε) (running : List String) : Progress σ → Progress σ → Prop
  /-- A name without a rule is passed over. -/
  | skip {p : Progress σ} {name : String} (hnew : name ∉ p.applied) (hrunning : name ∉ running)
      (hrule : Named.get? ev.rules name = none) (hstrict : ev.strict = false) :
      Step ev running p ⟨ev.skip name p.state, p.applied ++ [name]⟩
  /-- A rule takes effect, when all that it needs has been applied. -/
  | apply {p : Progress σ} {name : String} {rule : Rule σ ε} {state : σ} (hnew : name ∉ p.applied)
      (hrunning : name ∉ running) (hrule : Named.get? ev.rules name = some rule)
      (hneeds : ∀ need ∈ rule.needs, need ∈ p.applied)
      (heffect : rule.effect p.state = (state, none)) :
      Step ev running p ⟨state, p.applied ++ [name]⟩
  /-- The effect of a rule fails. -/
  | fail {p : Progress σ} {name : String} {rule : Rule σ ε} {state : σ} {e : ε}
      (hrule : Named.get? ev.rules name = some rule)
      (heffect : rule.effect p.state = (state, some e)) : Step ev running p ⟨state, p.applied⟩

/-- What can happen one after the other. -/
abbrev Steps (ev : Evaluator σ ε) (running : List String) : Progress σ → Progress σ → Prop :=
  Relation.ReflTransGen (Step ev running)

section Steps

variable {running : List String} {p q : Progress σ}

/-- What can happen while rules wait can happen while only some of them do. -/
theorem Step.mono {more : List String} (h : Step ev (running ++ more) p q) :
    Step ev running p q := by
  cases h with
  | skip hnew hrunning hrule hstrict =>
    exact .skip hnew (fun h => hrunning (List.mem_append_left _ h)) hrule hstrict
  | apply hnew hrunning hrule hneeds heffect =>
    exact .apply hnew (fun h => hrunning (List.mem_append_left _ h)) hrule hneeds heffect
  | fail hrule heffect => exact .fail hrule heffect

theorem Steps.mono {more : List String} (h : Steps ev (running ++ more) p q) :
    Steps ev running p q :=
  Relation.ReflTransGen.mono (fun _ _ hstep => hstep.mono) p q h

/-- What has been applied stays so. -/
theorem Steps.prefix_applied (h : Steps ev running p q) : p.applied <+: q.applied := by
  induction h with
  | refl => exact List.prefix_rfl
  | tail _ hstep ih =>
    refine ih.trans ?_
    cases hstep with
    | skip | apply => exact List.prefix_append ..
    | fail => exact List.prefix_rfl

/-- A rule that waits is not applied before its turn. -/
theorem Steps.not_mem_applied {name : String} (h : Steps ev running p q)
    (hrunning : name ∈ running) (hnew : name ∉ p.applied) : name ∉ q.applied := by
  induction h with
  | refl => exact hnew
  | tail _ hstep ih =>
    cases hstep with
    | skip _ hother | apply _ hother =>
      intro hmem
      rcases List.mem_append.mp hmem with hold | hlast
      · exact ih hold
      · exact hother (List.mem_singleton.mp hlast ▸ hrunning)
    | fail => exact ih

/-- Evaluation takes steps, and ends well only when all that was demanded has been applied. -/
theorem Evaluates.steps_and_applied {names : List String} {s t : Situation σ}
    {halt : Option (Halt ε)} (h : Evaluates ev names s t halt) :
    Steps ev s.running s.toProgress t.toProgress ∧
      (halt = none → ∀ name ∈ names, name ∈ t.applied) := by
  induction h with
  | nil => exact ⟨.refl, fun _ _ hmem => absurd hmem List.not_mem_nil⟩
  | known hname _ ih =>
    refine ⟨ih.1, fun hnone n hn => ?_⟩
    rcases List.mem_cons.mp hn with rfl | hrest
    · exact ih.1.prefix_applied.subset hname
    · exact ih.2 hnone n hrest
  | cycle | missing => exact ⟨.refl, fun hsome => absurd hsome (Option.some_ne_none _)⟩
  | skipped hnew hrule hstrict _ ih =>
    refine ⟨ih.1.head (.skip hnew.1 hnew.2 hrule hstrict), fun hnone n hn => ?_⟩
    rcases List.mem_cons.mp hn with rfl | hrest
    · exact ih.1.prefix_applied.subset (List.mem_append_right _ (List.mem_singleton_self n))
    · exact ih.2 hnone n hrest
  | halted _ _ _ ih =>
    exact ⟨Steps.mono ih.1, fun hsome => absurd hsome (Option.some_ne_none _)⟩
  | failed _ hrule _ heffect ih =>
    exact ⟨(Steps.mono ih.1).tail (.fail hrule heffect),
      fun hsome => absurd hsome (Option.some_ne_none _)⟩
  | @applied name _ _ u _ _ _ _ hnew hrule hneeds heffect _ ihneeds ihrest =>
    -- the rule was waiting while its needs were met, so it is still to be applied
    have hstill : name ∉ u.applied :=
      ihneeds.1.not_mem_applied (List.mem_append_right _ (List.mem_singleton_self name)) hnew.1
    rw [hneeds.running_after] at ihrest
    refine ⟨(Steps.mono ihneeds.1).trans
      (ihrest.1.head (.apply hstill hnew.2 hrule (ihneeds.2 rfl) heffect)), fun hnone n hn => ?_⟩
    rcases List.mem_cons.mp hn with rfl | hrest
    · exact ihrest.1.prefix_applied.subset (List.mem_append_right _ (List.mem_singleton_self n))
    · exact ihrest.2 hnone n hrest

end Steps

/-! ### What evaluation keeps -/

/-- An effect fails, when all that its rule needs has been applied. -/
inductive Fails (ev : Evaluator σ ε) (p q : Progress σ) (e : ε) : Prop
  | intro {name : String} {rule : Rule σ ε} (hnew : name ∉ p.applied)
      (hrule : Named.get? ev.rules name = some rule)
      (hneeds : ∀ need ∈ rule.needs, need ∈ p.applied)
      (heffect : rule.effect p.state = (q.state, some e)) (happlied : q.applied = p.applied)

/-- What holds at first, and is kept when a name of some kind is passed over or its rule is applied,
    holds when evaluation ends, or held when an effect failed and ended it, if all that is demanded,
    and all that this needs, is of the kind. -/
theorem Evaluates.keepsWithin {P : Progress σ → Prop} {S : String → Prop}
    (hclosed : ∀ {name rule}, S name → Named.get? ev.rules name = some rule →
      ∀ need ∈ rule.needs, S need)
    (hskip : ∀ {p name}, P p → S name → name ∉ p.applied → Named.get? ev.rules name = none →
      P ⟨ev.skip name p.state, p.applied ++ [name]⟩)
    (happly : ∀ {p name rule state}, P p → S name → name ∉ p.applied →
      Named.get? ev.rules name = some rule → (∀ need ∈ rule.needs, need ∈ p.applied) →
      rule.effect p.state = (state, none) → P ⟨state, p.applied ++ [name]⟩)
    {names : List String} {s t : Situation σ} {halt : Option (Halt ε)}
    (h : Evaluates ev names s t halt) (hnames : ∀ name ∈ names, S name) (hs : P s.toProgress) :
    (P t.toProgress ∧ ∀ e, halt ≠ some (.failed e)) ∨
      ∃ p name rule e, P p ∧ S name ∧ name ∉ p.applied ∧ Named.get? ev.rules name = some rule ∧
        (∀ need ∈ rule.needs, need ∈ p.applied) ∧ rule.effect p.state = (t.state, some e) ∧
        t.applied = p.applied ∧ halt = some (.failed e) := by
  induction h with
  | nil => exact Or.inl ⟨hs, fun _ => nofun⟩
  | known _ _ ih => exact ih (List.forall_mem_cons.mp hnames).2 hs
  | cycle | missing => exact Or.inl ⟨hs, fun _ => nofun⟩
  | skipped hnew hrule _ _ ih =>
    obtain ⟨hname, hrest⟩ := List.forall_mem_cons.mp hnames
    exact ih hrest (hskip hs hname hnew.1 hrule)
  | halted _ hrule _ ih => exact ih (hclosed (List.forall_mem_cons.mp hnames).1 hrule) hs
  | @failed name _ _ u rule state e hnew hrule hneeds heffect ih =>
    have hname := (List.forall_mem_cons.mp hnames).1
    rcases ih (hclosed hname hrule) hs with ⟨hu, _⟩ | ⟨_, _, _, _, _, _, _, _, _, _, _, hsome⟩
    · obtain ⟨hsteps, hdone⟩ := hneeds.steps_and_applied
      have hstill : name ∉ u.applied :=
        hsteps.not_mem_applied (List.mem_append_right _ (List.mem_singleton_self name)) hnew.1
      exact Or.inr ⟨u.toProgress, name, rule, e, hu, hname, hstill, hrule, hdone rfl, heffect, rfl,
        rfl⟩
    · cases hsome
  | @applied name _ _ u _ _ _ _ hnew hrule hneeds heffect _ ihneeds ihrest =>
    obtain ⟨hname, hrest⟩ := List.forall_mem_cons.mp hnames
    rcases ihneeds (hclosed hname hrule) hs with ⟨hu, _⟩ | ⟨_, _, _, _, _, _, _, _, _, _, _, hsome⟩
    · obtain ⟨hsteps, hdone⟩ := hneeds.steps_and_applied
      have hstill : name ∉ u.applied :=
        hsteps.not_mem_applied (List.mem_append_right _ (List.mem_singleton_self name)) hnew.1
      exact ihrest hrest (happly (p := u.toProgress) hu hname hstill hrule (hdone rfl) heffect)
    · cases hsome

/-- What holds at first, and is kept when a name is passed over or a rule is applied, holds when
    evaluation ends, or held when an effect failed and ended it. -/
theorem Evaluates.keeps {P : Progress σ → Prop}
    (hskip : ∀ {p name}, P p → name ∉ p.applied → Named.get? ev.rules name = none →
      P ⟨ev.skip name p.state, p.applied ++ [name]⟩)
    (happly : ∀ {p name rule state}, P p → name ∉ p.applied →
      Named.get? ev.rules name = some rule → (∀ need ∈ rule.needs, need ∈ p.applied) →
      rule.effect p.state = (state, none) → P ⟨state, p.applied ++ [name]⟩)
    {names : List String} {s t : Situation σ} {halt : Option (Halt ε)}
    (h : Evaluates ev names s t halt) (hs : P s.toProgress) :
    (P t.toProgress ∧ ∀ e, halt ≠ some (.failed e)) ∨
      ∃ p e, P p ∧ Fails ev p t.toProgress e ∧ halt = some (.failed e) := by
  have hkept := h.keepsWithin (P := P) (S := fun _ => True) (fun _ _ _ _ => trivial)
    (fun hp _ => hskip hp) (fun hp _ => happly hp) (fun _ _ => trivial) hs
  refine hkept.imp_right ?_
  rintro ⟨p, name, rule, e, hp, -, hnew, hrule, hneeds, heffect, happlied, hhalt⟩
  exact ⟨p, e, hp, ⟨hnew, hrule, hneeds, heffect, happlied⟩, hhalt⟩

end DocGraph.Rule
