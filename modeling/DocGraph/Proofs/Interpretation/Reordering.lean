import DocGraph.Interpretation
import DocGraph.Proofs.Rule.Halts
import DocGraph.Proofs.Rule.Ownership

/-! The order of a category's rules.

    Rules that keep to their fields, and come behind those that they need, do the same in every
    order. What a run that ends well leaves is filled in by each rule (`Filled`): the rule makes its
    part of it out of a blank record, as soon as what it needs is there. From then on every other run
    finds the same (`Tracks`), whatever the order, and cannot fail. -/

namespace DocGraph

open Rule

/-! ### Rules that can come in any order -/

namespace Rule

/-- How far behind the rules that need nothing a rule comes. -/
def rank (name : String) : Nat :=
  if name = "longname" then 2 else if name = "memberof" ∨ name = "import_style" then 1 else 0

/-- Rules of different names that keep to their fields and need only rules of lower rank, among them
    those that every run begins with and the one for the file. -/
structure Orderly (rules : Named DocRule) : Prop where
  nodup : rules.names.Nodup
  disciplined : ∀ e ∈ rules, e.2.Disciplined e.1
  bootstrap : ∀ name ∈ bootstrap, name ∈ rules.names
  declared : ∀ e ∈ rules, ∀ need ∈ e.2.needs, need ∈ rules.names
  ranked : ∀ e ∈ rules, ∀ need ∈ e.2.needs, rank need < rank e.1
  filePath : ("file_path", filePathRule) ∈ rules

theorem Orderly.perm {rules rules' : Named DocRule} (h : Orderly rules) (hperm : rules'.Perm rules) :
    Orderly rules' := by
  have hnames : rules'.names.Perm rules.names := hperm.map Prod.fst
  refine ⟨hnames.nodup_iff.mpr h.nodup, fun e he => h.disciplined e (hperm.mem_iff.mp he),
    fun name hname => hnames.mem_iff.mpr (h.bootstrap name hname),
    fun e he need hneed => hnames.mem_iff.mpr (h.declared e (hperm.mem_iff.mp he) need hneed),
    fun e he => h.ranked e (hperm.mem_iff.mp he), hperm.mem_iff.mpr h.filePath⟩

end Rule

namespace Category

theorem orderly_of_mem_all : ∀ c ∈ all, Orderly c.rules := by
  have hnodup : ∀ c ∈ all, c.rules.names.Nodup := by decide +kernel
  have hbootstrap : ∀ c ∈ all, ∀ name ∈ bootstrap, name ∈ c.rules.names := by decide +kernel
  have hdeclared : ∀ c ∈ all, ∀ e ∈ c.rules, ∀ need ∈ e.2.needs, need ∈ c.rules.names := by
    decide +kernel
  have hranked : ∀ c ∈ all, ∀ e ∈ c.rules, ∀ need ∈ e.2.needs, rank need < rank e.1 := by
    decide +kernel
  have hfilePath : ∀ c ∈ all, c.rules.get? "file_path" = some filePathRule := by
    simp only [all, List.forall_mem_cons]
    exact ⟨rfl, rfl, rfl, rfl, rfl, rfl, rfl, rfl, rfl, rfl, rfl, rfl, rfl, List.forall_mem_nil _⟩
  exact fun c hc => ⟨hnodup c hc, disciplined_of_mem_all c hc, hbootstrap c hc, hdeclared c hc,
    hranked c hc, Named.mem_of_get? (hfilePath c hc)⟩

theorem find?_name_of_mem_all : ∀ c ∈ all, find? c.name = some c := by
  simp only [all, List.forall_mem_cons]
  exact ⟨rfl, rfl, rfl, rfl, rfl, rfl, rfl, rfl, rfl, rfl, rfl, rfl, rfl, List.forall_mem_nil _⟩

end Category

/-! ### What rules fill in -/

namespace Rule

/-- The fields that none of some names fills in are as in a blank record. -/
def BlankBeyond (blank : Record) (names : List String) (r : Record) : Prop :=
  ∀ f : Field, (∀ name ∈ names, f.owner? ≠ some name) → r.field f = blank.field f

/-- A rule makes its part of a full record, once the record is full where the rule looks. -/
def Fits (s : Scope) (blank full : Record) (name : String) (rule : DocRule) : Prop :=
  ∀ d : Draft, AgreeOn [name] d.record blank → AgreeOn rule.needs d.record full →
    (rule.effect s d).2 = none ∧ AgreeOn [name] (rule.effect s d).1.record full

/-- Every rule makes its part of the full record, and there is nothing else in it. -/
structure Filled (rules : Named DocRule) (s : Scope) (blank full : Record) : Prop where
  fits : ∀ e ∈ rules, Fits s blank full e.1 e.2
  blankBeyond : BlankBeyond blank rules.names full

section Effects

variable {s : Scope} {name : String} {names : List String} {rule : DocRule} {blank r : Record}

theorem BlankBeyond.agreeOn (h : BlankBeyond blank names r) (hname : name ∉ names) :
    AgreeOn [name] r blank := by
  intro n hn f hf
  obtain rfl := List.mem_singleton.mp hn
  refine h f fun other hother hown => ?_
  obtain rfl := Option.some.inj (hf.symm.trans hown)
  exact hname hother

theorem BlankBeyond.mono {names' : List String} (h : BlankBeyond blank names r)
    (hnames : ∀ name ∈ names, name ∈ names') : BlankBeyond blank names' r :=
  fun f hf => h f fun name hname => hf name (hnames name hname)

/-- A rule leaves alone what others have filled in. -/
theorem DocRule.Disciplined.agreeOn (h : rule.Disciplined name) (s : Scope) (d : Draft)
    (hname : name ∉ names) : AgreeOn names (rule.effect s d).1.record d.record := by
  intro other hother f hf
  refine h.frame s d fun hown => ?_
  obtain rfl := Option.some.inj (hf.symm.trans hown)
  exact hname hother

theorem DocRule.Disciplined.blankBeyond (h : rule.Disciplined name) (s : Scope) {d : Draft}
    (hd : BlankBeyond blank names d.record) :
    BlankBeyond blank (names ++ [name]) (rule.effect s d).1.record := by
  intro f hf
  obtain ⟨hold, hlast⟩ := List.forall_mem_append.mp hf
  rw [h.frame s d (hlast name (List.mem_singleton_self name)), hd f hold]

theorem Fits.congr {full full' : Record} (h : Fits s blank full name rule)
    (hagree : AgreeOn (name :: rule.needs) full full') : Fits s blank full' name rule := by
  obtain ⟨hown, hneeds⟩ := List.forall_mem_cons.mp hagree
  intro d hd hdneeds
  obtain ⟨hok, hpart⟩ := h d hd (hdneeds.trans (AgreeOn.symm hneeds))
  exact ⟨hok, hpart.trans (List.forall_mem_singleton.mpr hown)⟩

/-- What a rule makes of a draft that is blank in the rule's own fields fits the draft. -/
theorem DocRule.Disciplined.fits (h : rule.Disciplined name) {d : Draft}
    (hown : AgreeOn [name] d.record blank) (hneeds : name ∉ rule.needs)
    (hok : (rule.effect s d).2 = none) : Fits s blank (rule.effect s d).1.record name rule := by
  intro d' hown' hneeds'
  have hagree : AgreeOn (name :: rule.needs) d'.record d.record :=
    (hown'.trans hown.symm).append (hneeds'.trans (h.agreeOn s d hneeds))
  obtain ⟨hsame, hpart⟩ := h.determined s hagree
  exact ⟨hsame.trans hok, hpart⟩

/-- A rule that needs nothing makes its part out of a blank record. -/
theorem Fits.agreeOn_of_blank {full : Record} (h : Fits s blank full name rule)
    (hneeds : rule.needs = []) :
    AgreeOn [name] (rule.effect s ⟨blank, [], []⟩).1.record full := by
  refine (h ⟨blank, [], []⟩ (fun _ _ _ _ => rfl) ?_).2
  rw [hneeds]
  nofun

/-- The rule for the file takes it over from the symbol. -/
theorem Filled.filePath_eq {rules : Named DocRule} {full : Record}
    (hfull : Filled rules s blank full) (hrules : Orderly rules) :
    full.filePath = s.symbol.filePath := by
  have hagree := (hfull.fits _ hrules.filePath).agreeOn_of_blank rfl
  exact (hagree "file_path" (List.mem_singleton_self _) .filePath rfl).symm

end Effects

end Rule

/-! ### Runs of a category's rules -/

namespace Interpretation

variable {c : Category} {strict : Bool} {s : Scope} {blank full : Record} {p : Progress Draft}
  {name : String} {rule : DocRule}

/-- The rules that have been applied have filled in their parts of the record. -/
structure Growing (c : Category) (s : Scope) (blank : Record) (p : Progress Draft) : Prop where
  blankBeyond : BlankBeyond blank p.applied p.state.record
  closed : ∀ e ∈ c.rules, e.1 ∈ p.applied → ∀ need ∈ e.2.needs, need ∈ p.applied
  fits : ∀ e ∈ c.rules, e.1 ∈ p.applied → Fits s blank p.state.record e.1 e.2

theorem Growing.start : Growing c s blank (.start ⟨blank, [], []⟩) where
  blankBeyond := fun _ _ => rfl
  closed := fun _ _ hmem => absurd hmem List.not_mem_nil
  fits := fun _ _ hmem => absurd hmem List.not_mem_nil

theorem Growing.apply (hp : Growing c s blank p) (hc : Orderly c.rules) (hnew : name ∉ p.applied)
    (hrule : (name, rule) ∈ c.rules) (hneeds : ∀ need ∈ rule.needs, need ∈ p.applied)
    (hok : (rule.effect s p.state).2 = none) :
    Growing c s blank ⟨(rule.effect s p.state).1, p.applied ++ [name]⟩ := by
  have hdisciplined : rule.Disciplined name := hc.disciplined _ hrule
  have hrule_of : ∀ e ∈ c.rules, e.1 ∈ [name] → e = (name, rule) := by
    rintro ⟨n, r⟩ he hn
    obtain rfl := List.mem_singleton.mp hn
    rw [Named.eq_of_mem hc.nodup he hrule]
  refine ⟨hdisciplined.blankBeyond s hp.blankBeyond, fun e he hmem need hneed => ?_,
    fun e he hmem => ?_⟩
  · rcases List.mem_append.mp hmem with hold | hlast
    · exact List.mem_append_left _ (hp.closed e he hold need hneed)
    · obtain rfl := hrule_of e he hlast
      exact List.mem_append_left _ (hneeds need hneed)
  · rcases List.mem_append.mp hmem with hold | hlast
    · -- nothing that the other rule looks at is filled in by this one
      have hother : name ∉ e.1 :: e.2.needs := fun hin => hnew <|
        List.forall_mem_cons.mpr ⟨hold, hp.closed e he hold⟩ name hin
      exact (hp.fits e he hold).congr (hdisciplined.agreeOn s p.state hother).symm
    · obtain rfl := hrule_of e he hlast
      exact hdisciplined.fits (hp.blankBeyond.agreeOn hnew) (fun hin => hnew (hneeds name hin)) hok

theorem Growing.skip (hp : Growing c s blank p) (hname : name ∉ c.rules.names) :
    Growing c s blank ⟨p.state.skip name, p.applied ++ [name]⟩ := by
  have happlied : ∀ e ∈ c.rules, e.1 ∈ p.applied ++ [name] → e.1 ∈ p.applied := by
    intro e he hmem
    refine (List.mem_append.mp hmem).resolve_right fun hlast => hname ?_
    rw [← List.mem_singleton.mp hlast]
    exact List.mem_map_of_mem he
  exact ⟨hp.blankBeyond.mono fun _ => List.mem_append_left _,
    fun e he hmem need hneed => List.mem_append_left _ (hp.closed e he (happlied e he hmem) need hneed),
    fun e he hmem => hp.fits e he (happlied e he hmem)⟩

/-- The diagnostics of the problems that a rule reports for a fresh record. -/
def reported (c : Category) (s : Scope) (id : Int) (name : String) : List Diagnostic :=
  match c.rules.get? name with
  | some rule => (rule.problems s).map fun p => ⟨id, s.symbol.filePath, p.1.name, p.1.value, p.2⟩
  | none => []

/-- The rules that have been applied have filled in their parts of the full record, and have reported
    their problems. -/
structure Tracks (c : Category) (s : Scope) (blank full : Record) (p : Progress Draft) : Prop where
  blankBeyond : BlankBeyond blank p.applied p.state.record
  agreeOn : AgreeOn p.applied p.state.record full
  diagnostics : p.state.diagnostics = p.applied.flatMap (reported c s blank.id)

/-- No rule fills in who the record is. -/
theorem Tracks.id_eq (hp : Tracks c s blank full p) : p.state.record.id = blank.id :=
  hp.blankBeyond .id fun _ _ => nofun

/-- Problems are reported for the symbol's file, whether or not it has been taken over. -/
theorem Tracks.reportPath_eq (hp : Tracks c s blank full p) (hblank : blank.filePath = .null)
    (hfull : full.filePath = s.symbol.filePath) : p.state.reportPath s = s.symbol.filePath := by
  by_cases happlied : "file_path" ∈ p.applied
  · have hpath : p.state.record.filePath = full.filePath :=
      hp.agreeOn "file_path" happlied .filePath rfl
    rw [Draft.reportPath, hpath, hfull, ite_self]
  · have hpath : p.state.record.filePath = blank.filePath :=
      hp.blankBeyond.agreeOn happlied "file_path" (List.mem_singleton_self _) .filePath rfl
    rw [Draft.reportPath, hpath, hblank]
    rfl

theorem Tracks.apply (hp : Tracks c s blank full p) (hc : Orderly c.rules)
    (hblank : blank.filePath = .null) (hfull : full.filePath = s.symbol.filePath)
    (hnew : name ∉ p.applied) (hrule : (name, rule) ∈ c.rules)
    (hpart : AgreeOn [name] (rule.effect s p.state).1.record full) :
    Tracks c s blank full ⟨(rule.effect s p.state).1, p.applied ++ [name]⟩ := by
  have hdisciplined : rule.Disciplined name := hc.disciplined _ hrule
  have hreported : (rule.problems s).map (p.state.diagnostic s) = reported c s blank.id name := by
    rw [reported, Named.get?_of_mem hc.nodup hrule]
    refine List.map_congr_left fun problem _ => ?_
    rw [Draft.diagnostic, hp.id_eq, hp.reportPath_eq hblank hfull]
  refine ⟨hdisciplined.blankBeyond s hp.blankBeyond,
    ((hdisciplined.agreeOn s p.state hnew).trans hp.agreeOn).append hpart, ?_⟩
  show (rule.effect s p.state).1.diagnostics = _
  rw [hdisciplined.diagnostics_eq, hp.diagnostics, hreported, List.flatMap_append,
    List.flatMap_singleton]

theorem Tracks.skip (hp : Tracks c s blank full p) (hfull : Filled c.rules s blank full)
    (hnew : name ∉ p.applied) (hname : name ∉ c.rules.names) :
    Tracks c s blank full ⟨p.state.skip name, p.applied ++ [name]⟩ := by
  have hpart : AgreeOn [name] p.state.record full :=
    (hp.blankBeyond.agreeOn hnew).trans (hfull.blankBeyond.agreeOn hname).symm
  refine ⟨hp.blankBeyond.mono fun _ => List.mem_append_left _, hp.agreeOn.append hpart, ?_⟩
  show p.state.diagnostics = _
  rw [hp.diagnostics, List.flatMap_append, List.flatMap_singleton, reported,
    Named.not_mem_names_iff.mp hname, List.append_nil]

/-! ### Whole runs -/

theorem names_registry (c : Category) (s : Scope) : (c.registry s).names = c.rules.names := by
  rw [Category.registry, Named.names, List.map_map]
  rfl

theorem get?_registry (c : Category) (s : Scope) (name : String) :
    (c.registry s).get? name = (c.rules.get? name).map fun rule => rule.inScope s :=
  Named.get?_map (fun _ (rule : DocRule) => rule.inScope s) c.rules

theorem exists_of_get?_registry {r : Rule Draft Failure} (h : (c.registry s).get? name = some r) :
    ∃ rule, (name, rule) ∈ c.rules ∧ rule.inScope s = r := by
  rw [get?_registry] at h
  obtain ⟨rule, hrule, hscope⟩ := Option.map_eq_some_iff.mp h
  exact ⟨rule, Named.mem_of_get? hrule, hscope⟩

theorem not_mem_names_of_get?_registry (h : (c.registry s).get? name = none) :
    name ∉ c.rules.names := by
  rw [← names_registry c s]
  exact Named.not_mem_names_iff.mpr h

/-- Needs lead to lower ranks, so they do not lead back. -/
theorem not_cyclic_registry (hc : Orderly c.rules) (s : Scope) : ¬ Cyclic (c.registry s) := by
  have hneeds : ∀ a b, Needs (c.registry s) a b → rank b < rank a := by
    rintro a b ⟨_, hrule, hneed⟩
    obtain ⟨rule, hmem, rfl⟩ := exists_of_get?_registry hrule
    exact hc.ranked _ hmem b hneed
  rintro ⟨name, hcycle⟩
  have hlt : ∀ a b, Relation.TransGen (Needs (c.registry s)) a b → rank b < rank a := by
    intro a b h
    induction h with
    | single h => exact hneeds _ _ h
    | tail _ h ih => exact (hneeds _ _ h).trans ih
  exact lt_irrefl _ (hlt name name hcycle)

theorem declared_registry (hc : Orderly c.rules) {need : String}
    (h : Needs (c.registry s) name need) : need ∈ (c.registry s).names := by
  obtain ⟨_, hrule, hneed⟩ := h
  obtain ⟨rule, hmem, rfl⟩ := exists_of_get?_registry hrule
  rw [names_registry]
  exact hc.declared _ hmem need hneed

theorem bootstrap_registry (hc : Orderly c.rules) (s : Scope) :
    ∀ name ∈ bootstrap ++ (c.registry s).names, name ∈ (c.registry s).names := by
  rw [names_registry]
  exact List.forall_mem_append.mpr ⟨hc.bootstrap, fun _ h => h⟩

theorem not_incomplete_registry (hc : Orderly c.rules) (s : Scope) :
    ¬ Incomplete (c.registry s) := by
  rintro ⟨name, hname, hboot | ⟨other, hneed⟩⟩
  · exact hname (bootstrap_registry hc s name (List.mem_append_left _ hboot))
  · exact hname (declared_registry hc hneed)

/-- Demands for rules of a category can fail only because an effect does. -/
theorem failed_of_ensureAll (hc : Orderly c.rules) {names : List String}
    (hnames : ∀ name ∈ names, name ∈ c.rules.names) {halt : Halt Failure}
    (h : (ensureAll (evaluator c strict s) [] names p).2 = some halt) : ∃ e, halt = .failed e := by
  cases halt with
  | cycle path => exact absurd (ensureAll_repeating h).cyclic (not_cyclic_registry hc s)
  | undeclared rule category =>
    have heval : Evaluates (evaluator c strict s) names ⟨p, []⟩
        ⟨(ensureAll (evaluator c strict s) [] names p).1, []⟩
        (ensureAll (evaluator c strict s) [] names p).2 := evaluates_of_ensureAll rfl
    have hmissing := heval.undeclared h (P := fun name => name ∈ (c.registry s).names)
      (fun _ _ hneed => declared_registry hc hneed) (by rwa [names_registry])
    exact absurd hmissing.2.2.2 hmissing.2.2.1
  | failed e => exact ⟨e, rfl⟩

/-- The run of a category's rules over a fresh record. -/
def runOf (c : Category) (strict : Bool) (s : Scope) (blank : Record) :
    Progress Draft × Option (Halt Failure) :=
  run (evaluator c strict s) (.start ⟨blank, [], []⟩)

/-- A run can end badly only because an effect fails. -/
theorem failed_of_runOf (hc : Orderly c.rules) {halt : Halt Failure}
    (h : (runOf c strict s blank).2 = some halt) : ∃ e, halt = .failed e := by
  refine failed_of_ensureAll hc (fun name hname => ?_) h
  rw [← names_registry c s]
  exact bootstrap_registry hc s name hname

theorem runOf_eq_none (hc : Orderly c.rules)
    (h : ∀ e, (runOf c strict s blank).2 ≠ some (.failed e)) :
    (runOf c strict s blank).2 = none := by
  cases hhalt : (runOf c strict s blank).2 with
  | none => rfl
  | some halt =>
    obtain ⟨e, rfl⟩ := failed_of_runOf hc hhalt
    exact absurd hhalt (h e)

/-- A run that ends well has applied each rule once, and nothing else. -/
theorem applied_runOf (hc : Orderly c.rules) (h : (runOf c strict s blank).2 = none) :
    (runOf c strict s blank).1.applied.Perm c.rules.names := by
  refine (List.perm_ext_iff_of_nodup (settled_run _ .nil).nodup hc.nodup).mpr fun name => ?_
  rw [← names_registry c s]
  constructor
  · exact (evaluates_run (evaluator c strict s) _).forall_applied
      (P := fun name => name ∈ (c.registry s).names) (fun _ _ => declared_registry hc)
      (bootstrap_registry hc s) (fun _ hmem => absurd hmem List.not_mem_nil) name
  · exact fun hname => mem_applied_of_run h (List.mem_append_right _ hname)

/-- What holds at first, and is kept when a name is passed over or a rule is applied, holds when the
    run ends, or held when a rule failed and ended it. -/
theorem runOf_keeps {P : Progress Draft → Prop}
    (hskip : ∀ {p name}, P p → name ∉ p.applied → name ∉ c.rules.names →
      P ⟨p.state.skip name, p.applied ++ [name]⟩)
    (happly : ∀ {p name rule}, P p → name ∉ p.applied → (name, rule) ∈ c.rules →
      (∀ need ∈ rule.needs, need ∈ p.applied) → (rule.effect s p.state).2 = none →
      P ⟨(rule.effect s p.state).1, p.applied ++ [name]⟩)
    (hstart : P (.start ⟨blank, [], []⟩)) :
    (P (runOf c strict s blank).1 ∧ ∀ e, (runOf c strict s blank).2 ≠ some (.failed e)) ∨
      ∃ p name rule, P p ∧ name ∉ p.applied ∧ (name, rule) ∈ c.rules ∧
        (∀ need ∈ rule.needs, need ∈ p.applied) ∧ (rule.effect s p.state).2 ≠ none ∧
        (runOf c strict s blank).1.state = (rule.effect s p.state).1 ∧
        (runOf c strict s blank).1.applied = p.applied ∧ (runOf c strict s blank).2 ≠ none := by
  have hkept := (evaluates_run (evaluator c strict s) (.start ⟨blank, [], []⟩)).keeps
    (fun hp hnew hrule => hskip hp hnew (not_mem_names_of_get?_registry hrule))
    (fun {p _ _ state} hp hnew hrule hneeds heffect => by
      obtain ⟨rule, hmem, rfl⟩ := exists_of_get?_registry hrule
      obtain rfl : (rule.effect s p.state).1 = state := congrArg Prod.fst heffect
      exact happly hp hnew hmem hneeds (congrArg Prod.snd heffect)) hstart
  rcases hkept with hend | ⟨p, e, hp, hfails, hhalt⟩
  · exact Or.inl hend
  · obtain ⟨hnew, hrule, hneeds, heffect, happlied⟩ := hfails
    obtain ⟨rule, hmem, rfl⟩ := exists_of_get?_registry hrule
    have hfailed : (rule.effect s p.state).2 = some e := congrArg Prod.snd heffect
    refine Or.inr ⟨p, _, rule, hp, hnew, hmem, hneeds, ?_, (congrArg Prod.fst heffect).symm,
      happlied, ?_⟩
    · simp [hfailed]
    · exact ne_of_eq_of_ne hhalt (Option.some_ne_none _)

/-- However a run ends, what it has applied has filled in its part of the record, behind all that it
    needs. There is nothing else in the record, unless a rule failed in the end. -/
theorem growing_runOf (hc : Orderly c.rules) (strict : Bool) (s : Scope) (blank : Record) :
    let p := (runOf c strict s blank).1
    (∀ e ∈ c.rules, e.1 ∈ p.applied → Fits s blank p.state.record e.1 e.2) ∧
      (∀ e ∈ c.rules, e.1 ∈ p.applied → ∀ need ∈ e.2.needs, need ∈ p.applied) ∧
      ((runOf c strict s blank).2 = none → BlankBeyond blank p.applied p.state.record) := by
  have hkept := @runOf_keeps c strict s blank (Growing c s blank) (fun hp _ hname => hp.skip hname)
    (fun hp hnew hmem hneeds hok => hp.apply hc hnew hmem hneeds hok) .start
  rcases hkept with
    ⟨hgrown, _⟩ | ⟨p, name, rule, hp, hnew, hmem, _, _, hstate, happlied, hfailed⟩
  · exact ⟨hgrown.fits, hgrown.closed, fun _ => hgrown.blankBeyond⟩
  · simp only [happlied, hstate]
    refine ⟨fun e he hin => ?_, hp.closed, fun hend => absurd hend hfailed⟩
    -- the rule that failed is not among those that were applied, nor do they need it
    have hother : name ∉ e.1 :: e.2.needs := fun hin' => hnew <|
      List.forall_mem_cons.mpr ⟨hin, hp.closed e he hin⟩ name hin'
    exact (hp.fits e he hin).congr ((hc.disciplined _ hmem).agreeOn s p.state hother).symm

/-- A run that ends well leaves a record that is filled in. -/
theorem filled_runOf (hc : Orderly c.rules) (h : (runOf c strict s blank).2 = none) :
    Filled c.rules s blank (runOf c strict s blank).1.state.record := by
  obtain ⟨hfits, -, hblank⟩ := growing_runOf hc strict s blank
  have happlied := applied_runOf hc h
  exact ⟨fun e he => hfits e he (happlied.mem_iff.mpr (List.mem_map_of_mem he)),
    (hblank h).mono fun _ => happlied.mem_iff.mp⟩

/-- Where a record can be filled in, a rule finds what it needs and makes its part. -/
theorem Tracks.fits (hp : Tracks c s blank full p) (hfull : Filled c.rules s blank full)
    (hnew : name ∉ p.applied) (hrule : (name, rule) ∈ c.rules)
    (hneeds : ∀ need ∈ rule.needs, need ∈ p.applied) :
    (rule.effect s p.state).2 = none ∧ AgreeOn [name] (rule.effect s p.state).1.record full :=
  hfull.fits _ hrule _ (hp.blankBeyond.agreeOn hnew) (hp.agreeOn.mono hneeds)

/-- A record that agrees with the full one on all that was applied, once that is everything, is the
    full one. -/
theorem Tracks.record_eq (hp : Tracks c s blank full p) (hfull : Filled c.rules s blank full)
    (happlied : p.applied.Perm c.rules.names) : p.state.record = full := by
  refine Record.ext_field fun f => ?_
  by_cases howner : ∃ name ∈ c.rules.names, f.owner? = some name
  · obtain ⟨name, hname, hf⟩ := howner
    exact hp.agreeOn name (happlied.mem_iff.mpr hname) f hf
  · have hbeyond : ∀ name ∈ c.rules.names, f.owner? ≠ some name :=
      fun name hname hf => howner ⟨name, hname, hf⟩
    rw [hfull.blankBeyond f hbeyond]
    exact hp.blankBeyond f fun name hname => hbeyond name (happlied.mem_iff.mp hname)

/-- Where a record can be filled in, every run ends well and does so. -/
theorem runOf_of_filled (hc : Orderly c.rules) (hblank : blank.filePath = .null)
    (hfull : Filled c.rules s blank full) (strict : Bool) :
    (runOf c strict s blank).2 = none ∧ (runOf c strict s blank).1.state.record = full ∧
      (runOf c strict s blank).1.state.diagnostics =
        (runOf c strict s blank).1.applied.flatMap (reported c s blank.id) := by
  have hstart : Tracks c s blank full (.start ⟨blank, [], []⟩) :=
    ⟨fun _ _ => rfl, fun _ hmem => absurd hmem List.not_mem_nil, rfl⟩
  rcases runOf_keeps (c := c) (fun hp hnew hname => hp.skip hfull hnew hname)
    (fun hp hnew hmem hneeds _ => hp.apply hc hblank (hfull.filePath_eq hc) hnew hmem
      (hp.fits hfull hnew hmem hneeds).2) hstart with
    ⟨htracks, hfine⟩ | ⟨p, _, _, hp, hnew, hmem, hneeds, hfails, _⟩
  · have hend := runOf_eq_none hc hfine
    exact ⟨hend, htracks.record_eq hfull (applied_runOf hc hend), htracks.diagnostics⟩
  · exact absurd (hp.fits hfull hnew hmem hneeds).1 hfails

/-! ### Interpretation -/

theorem interpret_of_mem_all (hc : c ∈ Category.all) (hblank : blank.category = c.name) :
    interpret strict s blank = interpretAs c strict s blank := by
  simp only [interpret, hblank, Category.find?_name_of_mem_all c hc]

theorem interpretAs_error (c : Category) (strict : Bool) (s : Scope) (blank : Record) :
    (interpretAs c strict s blank).2 = (runOf c strict s blank).2.map ofHalt := by
  rw [interpretAs, ← runOf]
  split <;> simp [*]

theorem interpretAs_eq_none_iff :
    (interpretAs c strict s blank).2 = none ↔ (runOf c strict s blank).2 = none := by
  rw [interpretAs_error, Option.map_eq_none_iff]

theorem interpretAs_of_runOf (h : (runOf c strict s blank).2 = none) :
    interpretAs c strict s blank =
      let d := (runOf c strict s blank).1.state
      ({ d with record := { d.record with
          tagsKnown := (splitTags c s.tags).1, tagsUnknown := (splitTags c s.tags).2 } }, none) := by
  rw [interpretAs, ← runOf]
  split <;> simp_all

/-- With the rules in another order, what is interpreted well stays so, with the same record and the
    same diagnostics. -/
theorem interpretAs_of_perm (c c' : Category) (hc : Orderly c.rules)
    (hperm : c'.rules.Perm c.rules) (htags : c'.tags = c.tags) (hblank : blank.filePath = .null)
    (strict' : Bool) (h : (interpretAs c strict s blank).2 = none) :
    (interpretAs c' strict' s blank).2 = none ∧
      (interpretAs c' strict' s blank).1.record = (interpretAs c strict s blank).1.record ∧
      (interpretAs c' strict' s blank).1.diagnostics.Perm
        (interpretAs c strict s blank).1.diagnostics := by
  have hc' : Orderly c'.rules := hc.perm hperm
  have hend := interpretAs_eq_none_iff.mp h
  have hfull := filled_runOf hc hend
  have hfull' : Filled c'.rules s blank (runOf c strict s blank).1.state.record :=
    ⟨fun e he => hfull.fits e (hperm.mem_iff.mp he),
      hfull.blankBeyond.mono fun _ => (hperm.map Prod.fst).mem_iff.mpr⟩
  obtain ⟨_, _, hdiagnostics⟩ := runOf_of_filled hc hblank hfull strict
  obtain ⟨hend', hrecord', hdiagnostics'⟩ := runOf_of_filled hc' hblank hfull' strict'
  have hsplit : splitTags c' s.tags = splitTags c s.tags := by rw [splitTags, splitTags, htags]
  have hreported : reported c' s blank.id = reported c s blank.id := by
    funext name
    rw [reported, reported, Named.get?_perm hc.nodup hperm]
  have happlied : (runOf c' strict' s blank).1.applied.Perm (runOf c strict s blank).1.applied :=
    ((applied_runOf hc' hend').trans (hperm.map Prod.fst)).trans (applied_runOf hc hend).symm
  rw [interpretAs_of_runOf hend, interpretAs_of_runOf hend', hsplit]
  refine ⟨rfl, by simp only [hrecord'], ?_⟩
  show (runOf c' strict' s blank).1.state.diagnostics.Perm (runOf c strict s blank).1.state.diagnostics
  rw [hdiagnostics, hdiagnostics', hreported]
  exact happlied.flatMap_right _

theorem interpretAs_strict (hc : Orderly c.rules) (s : Scope) (blank : Record) (strict : Bool) :
    interpretAs c strict s blank = interpretAs c false s blank := by
  have hrun : run (evaluator c strict s) (.start ⟨blank, [], []⟩) =
      run (evaluator c false s) (.start ⟨blank, [], []⟩) :=
    @run_withStrict _ _ (evaluator c false s) (not_incomplete_registry hc s) strict _
  rw [interpretAs, interpretAs, hrun]

/-- A fresh record of a category comes out the same whatever the order of the category's rules, and
    whether or not missing rules are errors: it is filled in for each order or for none, with the
    same fields, and its diagnostics differ in order at most. No rule is missing and no needs lead
    back to a rule, so only an effect that fails can stop it. -/
theorem interpretAs_reordered {c : Category} (hc : c ∈ Category.all) {rules : Named DocRule}
    (hperm : rules.Perm c.rules) (s : Scope) (id : Int) (moduleId : Option Int)
    (strict strict' : Bool) :
    let fresh : Record := { id := id, category := c.name, moduleId := moduleId }
    let reordered := interpretAs { c with rules := rules } strict s fresh
    let registered := interpret strict' s fresh
    (reordered.2 = none ↔ registered.2 = none) ∧
      (registered.2 = none → reordered.1.record = registered.1.record ∧
        reordered.1.diagnostics.Perm registered.1.diagnostics) ∧
      reordered = interpretAs { c with rules := rules } strict' s fresh ∧
      ∀ e, reordered.2 = some e → ∃ failure, e = .failed failure := by
  intro fresh reordered registered
  let other : Category := { c with rules := rules }
  have hrules := Category.orderly_of_mem_all c hc
  have hreordered : Orderly rules := hrules.perm hperm
  have hregistered : registered = interpretAs c strict' s fresh := by
    simp only [registered, interpret, fresh, Category.find?_name_of_mem_all c hc]
  rw [hregistered]
  refine ⟨⟨fun h => ?_, fun h => ?_⟩, fun h => ?_, ?_, fun e he => ?_⟩
  · exact (interpretAs_of_perm other c hreordered hperm.symm rfl rfl strict' h).1
  · exact (interpretAs_of_perm c other hrules hperm rfl rfl strict h).1
  · exact (interpretAs_of_perm c other hrules hperm rfl rfl strict h).2
  · exact (interpretAs_strict hreordered s fresh strict).trans
      (interpretAs_strict hreordered s fresh strict').symm
  · rw [interpretAs_error] at he
    obtain ⟨halt, hhalt, rfl⟩ := Option.map_eq_some_iff.mp he
    obtain ⟨failure, rfl⟩ := failed_of_runOf hreordered hhalt
    exact ⟨failure, rfl⟩

/-- A class whose comment has a tag that cannot be read and one that can. -/
def taggedClass : Scope where
  tags := [⟨"@param", "{number}"⟩, ⟨"@extends", "{Base}"⟩]
  symbol := { Symbol.ofFile (.str "a.js") with name := .str "A" }
  files := ⟨[], []⟩
  charNames := .none

theorem interpretAs_reordered_reversed :
    let fresh : Record := { id := 0, category := "Class" }
    let reversed := interpretAs { Category.classes with rules := Category.classes.rules.reverse }
      true taggedClass fresh
    let registered := interpret false taggedClass fresh
    registered.2 = none ∧ reversed.2 = none ∧ reversed.1.record = registered.1.record ∧
      reversed.1.diagnostics.Perm registered.1.diagnostics ∧ registered.1.diagnostics.length = 1 := by
  intro fresh reversed registered
  obtain ⟨hiff, hsame, _⟩ := interpretAs_reordered (c := Category.classes) (by simp [Category.all])
    (List.reverse_perm Category.classes.rules) taggedClass 0 none true false
  have hend : registered.2 = none := Option.isNone_iff_eq_none.mp (by decide +kernel)
  obtain ⟨hrecord, hdiagnostics⟩ := hsame hend
  exact ⟨hend, hiff.mpr hend, hrecord, hdiagnostics, by decide +kernel⟩

end Interpretation

end DocGraph
