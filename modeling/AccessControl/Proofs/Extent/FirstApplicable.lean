import Mathlib.Data.List.Forall2
import AccessControl.Proofs.Extent.Cover

namespace AccessControl.Algorithm

open Outcome (Completion)

/-- The outcomes up to the first that decides. -/
def exposed : List Outcome → List Outcome
  | [] => []
  | o :: os => if o.decision.effect?.isSome then [o] else o :: exposed os

/-- The outcomes behind the first applicable one, up to the first that decides. -/
def successors : List Outcome → List Outcome
  | [] => []
  | o :: os => if o.decision.isApplicable then exposed os else successors os

theorem firstTable_cons (o : Outcome) (os : List Outcome) :
    firstTable (o :: os) = if o.decision.isApplicable then o else firstTable os := by
  cases applies : o.decision.isApplicable <;> simp [firstTable, applicable, applies]

theorem exposed_decided {o : Outcome} {e : Effect} (decided : o.decision = .ofEffect e) (os : List Outcome) :
    exposed (o :: os) = [o] := by
  simp [exposed, decided]

theorem exposed_undecided {o : Outcome} (undecided : o.decision.effect? = none) (os : List Outcome) :
    exposed (o :: os) = o :: exposed os := by
  simp [exposed, undecided]

theorem exists_completion (o : Outcome) : ∃ o', Completion o o' := by
  obtain ⟨d, bs⟩ := o
  rcases d.kinds with rfl | ⟨e, rfl⟩ | ⟨x, r, rfl⟩
  · exact ⟨_, .settled ⟨.notApplicable, bs⟩ (by simp)⟩
  · exact ⟨_, .settled ⟨.ofEffect e, bs⟩ (by cases e <;> simp [Decision.ofEffect])⟩
  · exact ⟨_, .silent x r bs []⟩

theorem exists_completions (os : List Outcome) : ∃ os', List.Forall₂ Completion os os' := by
  induction os with
  | nil => exact ⟨[], .nil⟩
  | cons o os ih =>
    obtain ⟨o', head⟩ := exists_completion o
    obtain ⟨os', tail⟩ := ih
    exact ⟨o' :: os', .cons head tail⟩

theorem completion_kinds {o o' : Outcome} (c : Completion o o') :
    (o.decision.effect? = none ∧ o'.decision = .notApplicable) ∨
      ∃ e, o'.decision = .ofEffect e ∧ o.decision.Leans e := by
  cases c with
  | settled _ settled =>
    rcases o.decision.kinds with silent | ⟨e, decided⟩ | ⟨x, r, failed⟩
    · exact .inl ⟨by rw [silent]; rfl, silent⟩
    · exact .inr ⟨e, decided, by rw [decided, Decision.ofEffect_leans]⟩
    · exact absurd failed (settled x r)
  | silent => exact .inl ⟨rfl, rfl⟩
  | effect x r e covers => exact .inr ⟨e, rfl, Decision.indeterminate_leans.mpr covers⟩

theorem exposed_of_completions {os os' : List Outcome} (each : List.Forall₂ Completion os os') :
    (firstTable os').decision = .notApplicable ∨
      ∃ e, (firstTable os').decision = .ofEffect e ∧ ∃ o ∈ exposed os, o.decision.Leans e := by
  induction each with
  | nil => exact .inl rfl
  | @cons o o' os os' head _ ih =>
    have member : o ∈ exposed (o :: os) := by
      unfold exposed
      split <;> exact List.mem_cons_self
    rw [firstTable_cons]
    rcases completion_kinds head with ⟨undecided, silent⟩ | ⟨e, decided, leans⟩
    · simp only [silent, Decision.isApplicable, exposed_undecided undecided, Bool.false_eq_true, if_false]
      rcases ih with none | ⟨e, chosen, p, child, leans⟩
      · exact .inl none
      · exact .inr ⟨e, chosen, p, List.mem_cons_of_mem o child, leans⟩
    · rw [if_pos (by rw [decided, Decision.ofEffect_isApplicable])]
      exact .inr ⟨e, decided, o, member, leans⟩

theorem completions_of_exposed {os : List Outcome} {o : Outcome} {e : Effect}
    (member : o ∈ exposed os) (leans : o.decision.Leans e) :
    ∃ os', List.Forall₂ Completion os os' ∧ (firstTable os').decision = .ofEffect e := by
  induction os with
  | nil => cases member
  | cons p os ih =>
    obtain ⟨rest, tail⟩ := exists_completions os
    obtain ⟨d, bs⟩ := p
    rcases d.kinds with rfl | ⟨f, rfl⟩ | ⟨x, r, rfl⟩
    · rw [exposed_undecided rfl] at member
      rcases List.mem_cons.mp member with rfl | member
      · exact absurd leans Decision.notApplicable_leans
      · obtain ⟨os', each, decides⟩ := ih member
        refine ⟨_, .cons (.settled ⟨.notApplicable, bs⟩ (by simp)) each, ?_⟩
        rw [firstTable_cons]
        exact decides
    · rw [exposed_decided rfl] at member
      cases List.mem_singleton.mp member
      have same := Decision.ofEffect_leans.mp leans
      refine ⟨_, .cons (.settled ⟨.ofEffect f, bs⟩ (by cases f <;> simp [Decision.ofEffect])) tail, ?_⟩
      rw [firstTable_cons, Decision.ofEffect_isApplicable, if_pos rfl, same]
    · rw [exposed_undecided rfl] at member
      rcases List.mem_cons.mp member with rfl | member
      · have covers := Decision.indeterminate_leans.mp leans
        refine ⟨_, .cons (.effect x r e covers bs []) tail, ?_⟩
        rw [firstTable_cons, Decision.ofEffect_isApplicable, if_pos rfl]
      · obtain ⟨os', each, decides⟩ := ih member
        exact ⟨_, .cons (.silent x r bs []) each, by rw [firstTable_cons]; exact decides⟩

theorem exposed_leans {os : List Outcome} {x : Extent} {r : Reason}
    (failed : (firstTable os).decision = .indeterminate x r) (e : Effect) :
    (∃ o ∈ exposed os, o.decision.Leans e) ↔ x.Covers e ∨ ∃ o ∈ successors os, o.decision.Leans e := by
  induction os with
  | nil => cases failed
  | cons p os ih =>
    obtain ⟨d, bs⟩ := p
    rw [firstTable_cons] at failed
    rcases d.kinds with rfl | ⟨f, rfl⟩ | ⟨y, r', rfl⟩
    · rw [exposed_undecided rfl, List.exists_mem_cons_iff, ih failed]
      simp [Decision.notApplicable_leans, successors, Decision.isApplicable]
    · rw [Decision.ofEffect_isApplicable, if_pos rfl] at failed
      cases f <;> cases failed
    · cases failed
      rw [exposed_undecided rfl, List.exists_mem_cons_iff, Decision.indeterminate_leans]
      rfl

/-- The extent of a failing first-applicable list bounds what the list turns out to be exactly where
the outcomes behind the failure, up to the first that decides, lean to no other effect. -/
theorem first_extent_bounds_iff (id : String) (os : List Outcome) (x : Extent) (r : Reason)
    (failed : (firstApplicable.combine id os).decision = .indeterminate x r) :
    (∀ os', List.Forall₂ Completion os os' →
      (firstApplicable.combine id os').decision = .notApplicable ∨
        ∃ e, (firstApplicable.combine id os').decision = .ofEffect e ∧ x.Covers e) ↔
      ∀ o ∈ successors os, ∀ e, o.decision.Leans e → x.Covers e := by
  simp only [combine_eq_table, table] at failed ⊢
  constructor
  · intro bounded o member e leans
    have exposed := (exposed_leans failed e).mpr (.inr ⟨o, member, leans⟩)
    obtain ⟨p, child, leans⟩ := exposed
    obtain ⟨os', each, decides⟩ := completions_of_exposed child leans
    rcases bounded os' each with silent | ⟨f, decided, covers⟩
    · rw [silent] at decides
      cases e <;> cases decides
    · rw [decided] at decides
      cases e <;> cases f <;> first | exact covers | cases decides
  · intro within os' each
    rcases exposed_of_completions each with silent | ⟨e, decided, exposed⟩
    · exact .inl silent
    · rcases (exposed_leans failed e).mp exposed with covers | ⟨o, member, leans⟩
      · exact .inr ⟨e, decided, covers⟩
      · exact .inr ⟨e, decided, within o member e leans⟩

theorem first_extent_bounds_permit :
    let os : List Outcome :=
      [.indeterminate .permit (.missingAttribute "subject.role"), ⟨.permit, []⟩, ⟨.deny, []⟩]
    (firstApplicable.combine "documents" os).decision =
        .indeterminate .permit (.missingAttribute "subject.role") ∧
      ∀ os', List.Forall₂ Completion os os' →
        (firstApplicable.combine "documents" os').decision = .notApplicable ∨
          ∃ e, (firstApplicable.combine "documents" os').decision = .ofEffect e ∧ Extent.permit.Covers e := by
  intro os
  have within : ∀ o ∈ successors os, ∀ e, o.decision.Leans e → Extent.permit.Covers e := by
    intro o member e leans
    cases List.mem_singleton.mp member
    have same := (@Decision.ofEffect_leans .permit e).mp leans
    rw [same]
    decide
  exact ⟨rfl, (first_extent_bounds_iff "documents" os .permit _ rfl).mpr within⟩

/-- A failure that leans to permit, in front of a deny: the set fails with the extent permit and turns
out to deny, and an enclosing set lets a permit stand that the deny would have overridden. -/
theorem first_extent_misses_deny :
    let failed : Outcome := .indeterminate .permit (.missingAttribute "subject.role")
    let deny : Outcome := ⟨.deny, []⟩
    let permit : Outcome := ⟨.permit, []⟩
    (firstApplicable.combine "documents" [failed, deny]).decision =
        .indeterminate .permit (.missingAttribute "subject.role") ∧
      List.Forall₂ Completion [failed, deny] [.notApplicable, deny] ∧
      (firstApplicable.combine "documents" [.notApplicable, deny]).decision = .deny ∧
      ¬Extent.permit.Covers .deny ∧
      (denyOverrides.combine "all" [firstApplicable.combine "documents" [failed, deny], permit]).decision =
        .permit ∧
      (denyOverrides.combine "all"
        [firstApplicable.combine "documents" [.notApplicable, deny], permit]).decision = .deny := by
  refine ⟨rfl, ?_, rfl, by decide, rfl, rfl⟩
  exact .cons (.silent _ _ [] []) (.cons (.settled _ (by simp)) .nil)

end AccessControl.Algorithm
