import DocGraph.Proofs.Store.Identities
import DocGraph.Store.Sharing

/-! Updates of records that hold lists in common.

    Whatever records share, an update changes what they hold and no identity (`updated_update`,
    `updated_amend`). As long as no record holds a list with another, and the callback gives none
    out, nothing that is done to one record shows on another: the update is the one by the plain
    callback (`amend_of_unshared`). -/

namespace DocGraph.Sharing

open Store (Updated)

variable {sh : Sharing} {a : Amendment} {inPlace : Bool} {own : Named Nat}

/-! ### Identities -/

/-- Showing lists puts records in the place of those with their identities. -/
theorem updated_shown (sh : Sharing) (s : Store) : Updated s (sh.shown s) := by
  rw [shown]
  generalize sh.holders = holders
  induction holders generalizing s with
  | nil => exact .refl s
  | cons e holders ih =>
    rw [List.foldl_cons]
    refine .trans ?_ (ih _)
    cases s.get? e.1.id with
    | none => exact .refl s
    | some r => exact Store.updated_replace ..

theorem updated_update (sh : Sharing) (s : Store) (ps : List Predicate) (fields : Named Value) :
    Updated s (sh.update s ps fields).1.2 := Store.updated_updateEach ..

theorem updated_amendEach (a : Amendment) (inPlace : Bool) (own : Named Nat) :
    ∀ (ids : List Int) (sh : Sharing) (s : Store),
      Updated s (amendEach a inPlace own sh s ids).1.2
  | [], _, s => .refl s
  | id :: ids, sh, s => by
    cases hget : s.get? id with
    | none =>
      simp only [amendEach, hget]
      exact updated_amendEach a inPlace own ids sh s
    | some r =>
      rcases hask : sh.ask a inPlace own r with ⟨asked, left, reply⟩
      have hfirst := Store.updated_settle inPlace s r left reply
      cases hsettle : Store.settle inPlace s r left reply with
      | mk t outcome =>
        rw [hsettle] at hfirst
        let settled := asked.settle a inPlace own r left reply
        have hshown : Updated s (settled.shown t) := hfirst.trans (updated_shown settled t)
        cases outcome with
        | error e =>
          simp only [amendEach, hget, hask, hsettle]
          exact hshown
        | ok n =>
          have hrest := updated_amendEach a inPlace own ids settled (settled.shown t)
          simp only [amendEach, hget, hask, hsettle]
          cases hmore : amendEach a inPlace own settled (settled.shown t) ids with
          | mk after outcome =>
            rw [hmore] at hrest
            cases outcome <;> exact hshown.trans hrest

theorem updated_amend (sh : Sharing) (s : Store) (ps : List Predicate) (a : Amendment)
    (inPlace : Bool) : Updated s (sh.amend s ps a inPlace).1.2 := updated_amendEach ..

/-! ### Records that hold no lists in common -/

theorem enlist_of_no_lists : ∀ {fields : Named Value}, (∀ e ∈ fields, e.2.members? = none) →
    sh.enlist fields = (sh, [])
  | [], _ => rfl
  | (name, v) :: fields, h => by
    rw [List.forall_mem_cons] at h
    have hrest := enlist_of_no_lists h.2
    cases v with
    | list items => cases h.1
    | _ => exact hrest

theorem addAll_of_no_numbers {number? : String → Option Nat} (h : ∀ name, number? name = none) :
    ∀ (items : Named Value) (r : Record),
      sh.addAll number? r items = (sh, r.appendAll items)
  | [], _ => rfl
  | (name, v) :: items, r => by
    rw [addAll, Record.appendAll]
    cases r.append name v with
    | error e => rfl
    | ok r' =>
      simp only [h name]
      exact addAll_of_no_numbers h items r'

theorem target?_of_unshared (h : sh.holders = []) (id : Int) (name : String) :
    sh.target? a inPlace [] id name = none := by
  rw [target?, number?, h]
  split
  · rfl
  · split <;> rfl

/-- The callback does what it does without sharing, and to no list. -/
theorem ask_of_unshared (h : sh.holders = []) (a : Amendment) (inPlace : Bool)
    (view : Record → Store) (r : Record) :
    sh.ask a inPlace [] r = (sh, a.callback view r) := by
  have hvalues : (a.set.map fun e =>
      (e.1, ((Named.get? ([] : Named Nat) e.1).map fun n => Value.list (sh.list n)).getD e.2)) =
      a.set := List.map_id _
  simp only [ask, Amendment.callback, hvalues]
  rcases r.setAll a.set with ⟨left, _ | e⟩
  · simp only [addAll_of_no_numbers (target?_of_unshared h r.id)]
    rcases left.appendAll a.add with ⟨left, _ | e⟩ <;> rfl
  · rfl

theorem release_of_unshared (h : sh.holders = []) (id : Int) (names : List String) :
    sh.release id names = sh := by
  cases sh
  cases h
  rfl

theorem give_of_unshared (h : sh.holders = []) (id : Int) (names : List String) :
    sh.give id names [] = sh := by
  cases sh
  cases h
  rfl

theorem settle_of_unshared (h : sh.holders = []) (r left : Record)
    (reply : Except Record.SetError Reply) : sh.settle a inPlace [] r left reply = sh := by
  have htouched : (if inPlace then sh.give r.id (settable a.set) [] else sh) = sh := by
    rw [give_of_unshared h, ite_self]
  cases reply with
  | error e => exact htouched
  | ok reply =>
    cases reply with
    | nothing | foreign => exact htouched
    | given => simp only [settle, release_of_unshared h, give_of_unshared h, ite_self]
    | other o => simp only [settle, htouched, release_of_unshared h, ite_self]

theorem shown_of_unshared (h : sh.holders = []) (s : Store) : sh.shown s = s := by
  rw [shown, h]
  rfl

theorem amendEach_of_unshared (h : sh.holders = []) : ∀ (ids : List Int) (s : Store),
    amendEach a inPlace [] sh s ids =
      ((sh, (s.updateEachWith a.callback inPlace ids).1),
        (s.updateEachWith a.callback inPlace ids).2)
  | [], _ => rfl
  | id :: ids, s => by
    cases hget : s.get? id with
    | none =>
      simp only [amendEach, Store.updateEachWith, hget]
      exact amendEach_of_unshared h ids s
    | some r =>
      have hask := ask_of_unshared h a inPlace (s.seen inPlace r) r
      simp only [amendEach, Store.updateEachWith, hget, hask, settle_of_unshared h,
        shown_of_unshared h, Store.ask]
      generalize a.callback (s.seen inPlace r) r = answer
      rcases Store.settle inPlace s r answer.1 answer.2 with ⟨t, e | n⟩
      · rfl
      · simp only [amendEach_of_unshared h ids t]
        rcases Store.updateEachWith a.callback inPlace t ids with ⟨u, e | m⟩ <;> rfl

/-- Records that hold no lists in common are updated as by the plain callback, and hold none in
    common afterwards, if the callback sets none. -/
theorem amend_of_unshared (h : sh.holders = []) (s : Store) (ps : List Predicate)
    (hset : ∀ e ∈ a.set, e.2.members? = none) :
    sh.amend s ps a inPlace =
      ((sh, (s.updateWith ps a.callback inPlace).1), (s.updateWith ps a.callback inPlace).2) := by
  simp only [amend, enlist_of_no_lists hset]
  exact amendEach_of_unshared h _ s

end DocGraph.Sharing
