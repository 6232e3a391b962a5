import Mathlib.Data.List.Nodup
import DocGraph.Proofs.Rule.Evaluation

/-! The order in which rules are applied.

    The names that have been applied stand in an order in which each comes once, and behind all that
    its rule needs (`Settled`): every step keeps it so. There is no cycle of needs among them, and
    they are closed under needs. A run that ends well has applied every rule, so then there is no
    cycle at all (`not_cyclic_of_run`). -/

namespace DocGraph.Rule

open Relation

variable {σ ε : Type} {ev : Evaluator σ ε} {rules : Registry σ ε}

/-- The name has a rule, and that needs another name. -/
def Needs (rules : Registry σ ε) (name need : String) : Prop :=
  ∃ rule, Named.get? rules name = some rule ∧ need ∈ rule.needs

/-- Needs lead from a name back to it. Every name on the way needs another, so it has a rule. -/
def Cyclic (rules : Registry σ ε) : Prop := ∃ name, TransGen (Needs rules) name name

theorem Needs.mem_names {name need : String} (h : Needs rules name need) : name ∈ rules.names := by
  obtain ⟨rule, hrule, _⟩ := h
  exact Named.mem_names_iff.mpr ⟨rule, hrule⟩

/-! ### Settled names -/

/-- Names in an order in which each comes once, and behind all that its rule needs. -/
inductive Settled (rules : Registry σ ε) : List String → Prop
  | nil : Settled rules []
  | concat {names : List String} {name : String} (h : Settled rules names) (hnew : name ∉ names)
      (hneeds : ∀ need, Needs rules name need → need ∈ names) : Settled rules (names ++ [name])

namespace Settled

variable {names : List String}

theorem nodup (h : Settled rules names) : names.Nodup := by
  induction h with
  | nil => exact List.nodup_nil
  | concat _ hnew _ ih =>
    rw [← List.concat_eq_append]
    exact ih.concat hnew

/-- What a settled name needs comes before it. -/
theorem before (h : Settled rules names) {name need : String} (hmem : name ∈ names)
    (hneed : Needs rules name need) : List.Sublist [need, name] names := by
  induction h with
  | nil => cases hmem
  | @concat names last _ _ hneeds ih =>
    rcases List.mem_append.mp hmem with hold | hlast
    · exact (ih hold).trans (List.sublist_append_left ..)
    · obtain rfl := List.mem_singleton.mp hlast
      exact (List.singleton_sublist.mpr (hneeds need hneed)).append_right [name]

theorem closed (h : Settled rules names) {name need : String} (hmem : name ∈ names)
    (hneed : Needs rules name need) : need ∈ names :=
  (h.before hmem hneed).subset List.mem_cons_self

theorem closed_of_reflTransGen (h : Settled rules names) {name need : String} (hmem : name ∈ names)
    (hneed : ReflTransGen (Needs rules) name need) : need ∈ names := by
  induction hneed with
  | refl => exact hmem
  | tail _ hlast ih => exact h.closed ih hlast

/-- There is no cycle among settled names: the last of its names would need one behind it. -/
theorem not_transGen (h : Settled rules names) {name : String} (hmem : name ∈ names) :
    ¬ TransGen (Needs rules) name name := by
  induction h with
  | nil => cases hmem
  | @concat names last h hnew hneeds ih =>
    rcases List.mem_append.mp hmem with hold | hlast
    · exact ih hold
    · obtain rfl := List.mem_singleton.mp hlast
      intro hcycle
      obtain ⟨need, hneed, hback⟩ := TransGen.head'_iff.mp hcycle
      exact hnew (h.closed_of_reflTransGen (hneeds need hneed) hback)

end Settled

/-! ### Runs -/

section Runs

variable {running : List String} {p q : Progress σ}

theorem Step.settled (h : Step ev running p q) (hp : Settled ev.rules p.applied) :
    Settled ev.rules q.applied := by
  cases h with
  | skip hnew _ hrule _ =>
    refine hp.concat hnew fun need hneed => ?_
    exact absurd hneed.mem_names (Named.not_mem_names_iff.mpr hrule)
  | apply hnew _ hrule hneeds _ =>
    refine hp.concat hnew fun need hneed => ?_
    obtain ⟨rule, hrule', hmem⟩ := hneed
    obtain rfl := Option.some.inj (hrule.symm.trans hrule')
    exact hneeds need hmem
  | fail => exact hp

theorem Steps.settled (h : Steps ev running p q) (hp : Settled ev.rules p.applied) :
    Settled ev.rules q.applied := by
  induction h with
  | refl => exact hp
  | tail _ hstep ih => exact hstep.settled ih

/-- A strict evaluator passes nothing over. -/
theorem Steps.mem_names_of_strict (h : Steps ev running p q) (hstrict : ev.strict = true)
    (hp : ∀ name ∈ p.applied, name ∈ ev.rules.names) : ∀ name ∈ q.applied, name ∈ ev.rules.names := by
  induction h with
  | refl => exact hp
  | tail _ hstep ih =>
    cases hstep with
    | skip _ _ _ hlenient => exact absurd (hstrict.symm.trans hlenient) (by decide)
    | apply _ _ hrule =>
      intro name hmem
      rcases List.mem_append.mp hmem with hold | hlast
      · exact ih name hold
      · rw [List.mem_singleton.mp hlast]
        exact Named.mem_names_iff.mpr ⟨_, hrule⟩
    | fail => exact ih

/-- What holds of all that is demanded, and of all that any rule needs, holds of all that is
    applied. -/
theorem Evaluates.forall_applied {P : String → Prop} {names : List String} {s t : Situation σ}
    {halt : Option (Halt ε)} (h : Evaluates ev names s t halt)
    (hneeds : ∀ name need, Needs ev.rules name need → P need) (hnames : ∀ name ∈ names, P name)
    (hs : ∀ name ∈ s.applied, P name) : ∀ name ∈ t.applied, P name := by
  induction h with
  | nil | cycle | missing => exact hs
  | known _ _ ih => exact ih (List.forall_mem_cons.mp hnames).2 hs
  | skipped _ _ _ _ ih =>
    obtain ⟨hname, hrest⟩ := List.forall_mem_cons.mp hnames
    exact ih hrest (List.forall_mem_append.mpr ⟨hs, List.forall_mem_singleton.mpr hname⟩)
  | halted _ hrule _ ih => exact ih (fun need hmem => hneeds _ need ⟨_, hrule, hmem⟩) hs
  | failed _ hrule _ _ ih => exact ih (fun need hmem => hneeds _ need ⟨_, hrule, hmem⟩) hs
  | applied _ hrule _ _ _ ihneeds ihrest =>
    obtain ⟨hname, hrest⟩ := List.forall_mem_cons.mp hnames
    have hu := ihneeds (fun need hmem => hneeds _ need ⟨_, hrule, hmem⟩) hs
    exact ihrest hrest (List.forall_mem_append.mpr ⟨hu, List.forall_mem_singleton.mpr hname⟩)

/-- Where evaluation ends badly behind a name, that name was not the last one. -/
theorem Evaluates.ne_last {name last : String} {rest : List String} {s t : Situation σ}
    {halt : Option (Halt ε)} (h : Evaluates ev rest s t halt) (hhalt : halt ≠ none)
    (hlast : last ∉ (name :: rest).dropLast) : name ≠ last ∧ last ∉ rest.dropLast := by
  cases rest with
  | nil =>
    cases h
    exact absurd rfl hhalt
  | cons next rest =>
    rw [List.dropLast_cons_cons, List.mem_cons, not_or] at hlast
    exact ⟨Ne.symm hlast.1, hlast.2⟩

/-- A name that is demanded last, and that no rule needs, is not applied unless evaluation ends
    well. -/
theorem Evaluates.forall_applied_ne_last {last : String} {names : List String}
    {s t : Situation σ} {halt : Option (Halt ε)} (h : Evaluates ev names s t halt)
    (hhalt : halt ≠ none) (hneeds : ∀ name need, Needs ev.rules name need → need ≠ last)
    (hlast : last ∉ names.dropLast) (hs : ∀ name ∈ s.applied, name ≠ last) :
    ∀ name ∈ t.applied, name ≠ last := by
  induction h with
  | nil => exact absurd rfl hhalt
  | known _ hrest ih => exact ih hhalt (hrest.ne_last hhalt hlast).2 hs
  | cycle | missing => exact hs
  | skipped _ _ _ hrest ih =>
    obtain ⟨hne, hlater⟩ := hrest.ne_last hhalt hlast
    exact ih hhalt hlater (List.forall_mem_append.mpr ⟨hs, List.forall_mem_singleton.mpr hne⟩)
  | halted _ hrule hmet _ | failed _ hrule hmet _ _ =>
    exact hmet.forall_applied hneeds (fun need hneed => hneeds _ need ⟨_, hrule, hneed⟩) hs
  | applied _ hrule hmet _ hrest _ ih =>
    have hu := hmet.forall_applied hneeds (fun need hneed => hneeds _ need ⟨_, hrule, hneed⟩) hs
    obtain ⟨hne, hlater⟩ := hrest.ne_last hhalt hlast
    exact ih hhalt hlater (List.forall_mem_append.mpr ⟨hu, List.forall_mem_singleton.mpr hne⟩)

/-- A run is an evaluation that begins with no rule waiting. -/
theorem evaluates_run (ev : Evaluator σ ε) (p : Progress σ) :
    Evaluates ev (bootstrap ++ ev.rules.names) ⟨p, []⟩ ⟨(run ev p).1, []⟩ (run ev p).2 :=
  evaluates_of_ensureAll rfl

theorem settled_run (ev : Evaluator σ ε) (hp : Settled ev.rules p.applied) :
    Settled ev.rules (run ev p).1.applied :=
  (evaluates_run ev p).steps_and_applied.1.settled hp

/-- A run that ends well has applied every rule. -/
theorem mem_applied_of_run (h : (run ev p).2 = none) {name : String}
    (hname : name ∈ bootstrap ++ ev.rules.names) : name ∈ (run ev p).1.applied :=
  (evaluates_run ev p).steps_and_applied.2 h name hname

/-- A run that ends well has applied all that is needed. -/
theorem needed_mem_applied_of_run (hp : Settled ev.rules p.applied) (h : (run ev p).2 = none)
    {name need : String} (hneed : Needs ev.rules name need) : need ∈ (run ev p).1.applied :=
  (settled_run ev hp).closed
    (mem_applied_of_run h (List.mem_append_right _ hneed.mem_names)) hneed

theorem not_cyclic_of_run (hp : Settled ev.rules p.applied) (h : (run ev p).2 = none) :
    ¬ Cyclic ev.rules := by
  rintro ⟨name, hcycle⟩
  obtain ⟨need, hneed, _⟩ := TransGen.head'_iff.mp hcycle
  exact (settled_run ev hp).not_transGen
    (mem_applied_of_run h (List.mem_append_right _ hneed.mem_names)) hcycle

end Runs

end DocGraph.Rule
