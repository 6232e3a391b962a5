import DocGraph.Named
import DocGraph.Text.Basic

/-! Evaluating rules that need one another.

    A rule has an effect on a state and names the rules whose effects it needs first. Rules are
    applied on demand, each at most once, in whatever order the demands and needs bring them up. A
    rule that is needed while it waits for its own needs closes a cycle. A name without a rule is
    an error for a strict evaluator and is passed over by a lenient one.

    Each nested demand makes the path of waiting rules longer by a rule that is not on it yet, so
    evaluation ends: `waiting_append_lt` is the fact behind it, and `effort` the number that gets
    smaller. -/

namespace DocGraph

/-- A rule over states `σ`, whose effect may fail with an `ε`. -/
structure Rule (σ ε : Type) where
  needs : List String
  effect : σ → σ × Option ε

namespace Rule

/-- Rules by name, in the order in which they are applied when nothing else demands them. -/
abbrev Registry (σ ε : Type) := Named (Rule σ ε)

/-- Why evaluation stops. -/
inductive Halt (ε : Type) where
  /-- The rules on the path wait for one another; the last name occurs before. -/
  | cycle (path : List String)
  /-- A demanded rule is missing. -/
  | undeclared (rule category : String)
  /-- An effect failed. -/
  | failed (e : ε)
  deriving DecidableEq

/-- What evaluation goes by. -/
structure Evaluator (σ ε : Type) where
  rules : Registry σ ε
  strict : Bool
  /-- The category whose rules these are, named in an error. -/
  category : String
  /-- What passing over a missing rule leaves in the state. -/
  skip : String → σ → σ

/-- How far evaluation has come. -/
structure Progress (σ : Type) where
  state : σ
  /-- The names that have been applied or passed over, in order. -/
  applied : List String
  deriving DecidableEq

/-- The number of rules that are not on the path of waiting ones. -/
def waiting {σ ε : Type} (rules : Registry σ ε) (path : List String) : Nat :=
  rules.countP fun r => !path.contains r.1

/-- A longer path leaves no more rules. -/
theorem waiting_append_le {σ ε : Type} (rules : Registry σ ε) (path : List String) (name : String) :
    waiting rules (path ++ [name]) ≤ waiting rules path := by
  refine List.countP_mono_left fun r _ h => ?_
  simp at h ⊢
  exact h.1

/-- A path that grows by a rule not on it leaves fewer rules. -/
theorem waiting_append_lt {σ ε : Type} {path : List String} {name : String} :
    ∀ {rules : Registry σ ε} {rule : Rule σ ε}, Named.get? rules name = some rule →
      path.contains name = false → waiting rules (path ++ [name]) < waiting rules path
  | [], _, h, _ => by simp [Named.get?] at h
  | r :: rs, rule, h, hp => by
    have hle := waiting_append_le rs path name
    by_cases hr : r.1 = name
    · have hmem : path.contains r.1 = false := by rw [hr]; exact hp
      simp only [waiting, List.countP_cons] at hle ⊢
      simp [hr] at hmem ⊢
      simp at hle
      simp at hp
      simp [hp]
      omega
    · have hrest : Named.get? rs name = some rule := by
        simpa [Named.get?, hr] using h
      have hlt := waiting_append_lt hrest hp
      simp only [waiting, List.countP_cons] at hlt ⊢
      by_cases hc : path.contains r.1 <;> simp_all

/-- The greatest number of names that a rule needs. -/
def mostNeeds {σ ε : Type} : Registry σ ε → Nat
  | [] => 0
  | r :: rs => max r.2.needs.length (mostNeeds rs)

theorem length_needs_le {σ ε : Type} {name : String} :
    ∀ {rules : Registry σ ε} {rule : Rule σ ε}, Named.get? rules name = some rule →
      rule.needs.length ≤ mostNeeds rules
  | [], _, h => by simp [Named.get?] at h
  | r :: rs, rule, h => by
    rw [Named.get?] at h
    split at h
    · obtain rfl := Option.some.inj h
      exact Nat.le_max_left ..
    · exact Nat.le_trans (length_needs_le h) (Nat.le_max_right ..)

/-- What demanding one name can cost: each rule that is not on the path can wait once, for no more
    names than any rule needs. -/
def effort {σ ε : Type} (rules : Registry σ ε) (path : List String) : Nat :=
  waiting rules path * (mostNeeds rules + 2)

/-- Demanding all that a rule needs costs less than demanding the rule. -/
theorem effort_append_lt {σ ε : Type} {rules : Registry σ ε} {rule : Rule σ ε}
    {path : List String} {name : String} (hr : Named.get? rules name = some rule)
    (hp : path.contains name = false) :
    effort rules (path ++ [name]) + (rule.needs.length + 1) < effort rules path := by
  have hneeds := length_needs_le hr
  calc effort rules (path ++ [name]) + (rule.needs.length + 1)
      < (waiting rules (path ++ [name]) + 1) * (mostNeeds rules + 2) := by
        rw [effort, Nat.succ_mul]
        omega
    _ ≤ effort rules path := Nat.mul_le_mul_right _ (waiting_append_lt hr hp)

mutual

/-- Applies the rule of a name unless that has been done. `path` holds the rules that wait for
    it. -/
def ensure {σ ε : Type} (ev : Evaluator σ ε) (path : List String) (name : String)
    (p : Progress σ) : Progress σ × Option (Halt ε) :=
  if p.applied.contains name then (p, none)
  else if _hp : path.contains name then (p, some (.cycle (path ++ [name])))
  else
    match _hr : Named.get? ev.rules name with
    | none =>
      if ev.strict then (p, some (.undeclared name ev.category))
      else (⟨ev.skip name p.state, p.applied ++ [name]⟩, none)
    | some rule =>
      match ensureAll ev (path ++ [name]) rule.needs p with
      | (p, some halt) => (p, some halt)
      | (p, none) =>
        match rule.effect p.state with
        | (state, some e) => (⟨state, p.applied⟩, some (.failed e))
        | (state, none) => (⟨state, p.applied ++ [name]⟩, none)
termination_by effort ev.rules path
decreasing_by
  exact effort_append_lt _hr (by simpa using _hp)

/-- Applies the rules of names in order, up to the first that fails. -/
def ensureAll {σ ε : Type} (ev : Evaluator σ ε) (path : List String) (names : List String)
    (p : Progress σ) : Progress σ × Option (Halt ε) :=
  match names with
  | [] => (p, none)
  | name :: more =>
    match ensure ev path name p with
    | (p, some halt) => (p, some halt)
    | (p, none) => ensureAll ev path more p
termination_by effort ev.rules path + (names.length + 1)
decreasing_by
  · simp
  · simp

end

/-- The rules that are applied before all others. -/
def bootstrap : List String := ["kind", "qualifier", "name"]

/-- Applies the bootstrap rules and then every rule, in order. -/
def run {σ ε : Type} (ev : Evaluator σ ε) (p : Progress σ) : Progress σ × Option (Halt ε) :=
  ensureAll ev [] (bootstrap ++ ev.rules.names) p

/-- Nothing applied yet. -/
def Progress.start {σ : Type} (state : σ) : Progress σ := ⟨state, []⟩

/-- The words for a cycle. -/
def cycleMessage (path : List String) : String :=
  "Circular rule dependency: " ++ Text.joined " -> " path

/-- The words for a missing rule. -/
def undeclaredMessage (rule category : String) : String :=
  "Rule '" ++ rule ++ "' is not declared for category '" ++ category ++ "'"

end Rule

end DocGraph
