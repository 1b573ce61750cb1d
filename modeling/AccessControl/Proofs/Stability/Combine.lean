import Mathlib.Data.List.Forall2
import AccessControl.Proofs.Extent.Cover

namespace AccessControl

structure Decision.Narrows (d d' : Decision) : Prop where
  decided : ∀ e, d = .ofEffect e → d' = .ofEffect e
  leans : ∀ e, d'.Leans e → d.Leans e

theorem Decision.Narrows.refl (d : Decision) : d.Narrows d := ⟨fun _ same => same, fun _ leans => leans⟩

theorem Decision.Narrows.of_failed {d' : Decision} {x : Extent} (within : ∀ e, d'.Leans e → x.Covers e)
    (r : Reason) : (indeterminate x r).Narrows d' where
  decided e same := by cases e <;> cases same
  leans e leans := indeterminate_leans.mpr (within e leans)

theorem Decision.Narrows.notApplicable {d d' : Decision} (narrows : d.Narrows d')
    (silent : d = .notApplicable) : d' = .notApplicable := by
  apply eq_notApplicable
  intro e leans
  have before := narrows.leans e leans
  rw [silent] at before
  exact notApplicable_leans before

def Outcome.Narrows (o o' : Outcome) : Prop := o.decision.Narrows o'.decision

namespace Algorithm

variable {os os' : List Outcome} {e : Effect}

theorem exists_leans_of_narrows (each : List.Forall₂ Outcome.Narrows os os')
    (leans : ∃ o ∈ os', o.decision.Leans e) : ∃ o ∈ os, o.decision.Leans e := by
  induction each with
  | nil => exact leans
  | cons head _ ih =>
    rw [List.exists_mem_cons_iff] at leans ⊢
    exact leans.imp (head.leans e) ih

theorem exists_decided_of_narrows (each : List.Forall₂ Outcome.Narrows os os')
    (decided : ∃ o ∈ os, o.decision = .ofEffect e) : ∃ o ∈ os', o.decision = .ofEffect e := by
  induction each with
  | nil => exact decided
  | cons head _ ih =>
    rw [List.exists_mem_cons_iff] at decided ⊢
    exact decided.imp (head.decided e) ih

theorem overridesTable_narrows (winner : Effect) (each : List.Forall₂ Outcome.Narrows os os') :
    (overridesTable winner os).Narrows (overridesTable winner os') := by
  by_cases won : ∃ o ∈ os, o.decision = .ofEffect winner
  · have won' := exists_decided_of_narrows each won
    rw [Outcome.Narrows, overridesTable_won won, overridesTable_won won']
    exact .refl _
  · constructor
    · intro e decided
      -- a loser decides only where nothing leans to the winner, so no winner can turn up
      obtain ⟨unleaning, lost, loser⟩ := (overridesTable_lost_iff won).mp decided
      have unleaning' := mt (exists_leans_of_narrows each) unleaning
      have unwon' : ¬∃ o ∈ os', o.decision = .ofEffect winner := by
        rintro ⟨o, member, wins⟩
        exact unleaning' ⟨o, member, Decision.leans_iff.mpr (.inl wins)⟩
      exact (overridesTable_lost_iff unwon').mpr ⟨unleaning', exists_decided_of_narrows each lost, loser⟩
    · intro e leans
      exact (overridesTable_leans_iff won).mpr (exists_leans_of_narrows each (overridesTable_leans leans))

theorem applicable_nil_of_narrows (each : List.Forall₂ Outcome.Narrows os os')
    (none : applicable os = []) : applicable os' = [] := by
  induction each with
  | nil => rfl
  | @cons o o' os os' head _ ih =>
    rw [applicable_cons] at none ⊢
    rcases o.decision.silent_or_applies with silent | applies
    · rw [head.notApplicable silent]
      rw [silent] at none
      exact ih none
    · rw [if_pos applies] at none
      cases none

theorem applicable_single_of_narrows (each : List.Forall₂ Outcome.Narrows os os') {o : Outcome}
    (chosen : applicable os = [o]) (decided : o.decision = .ofEffect e) :
    ∃ o', applicable os' = [o'] ∧ o'.decision = .ofEffect e := by
  induction each with
  | nil => cases chosen
  | @cons p p' os os' head tail ih =>
    rw [applicable_cons] at chosen ⊢
    rcases p.decision.silent_or_applies with silent | applies
    · rw [head.notApplicable silent]
      rw [silent] at chosen
      exact ih chosen
    · rw [if_pos applies] at chosen
      obtain ⟨rfl, none⟩ := List.cons.inj chosen
      have decided' := head.decided e decided
      refine ⟨p', ?_, decided'⟩
      rw [decided', Decision.ofEffect_isApplicable, if_pos rfl, applicable_nil_of_narrows tail none]

theorem onlyOneTable_decided {id : String} (decided : (onlyOneTable id os).decision = .ofEffect e) :
    ∃ o, applicable os = [o] ∧ o.decision = .ofEffect e := by
  unfold onlyOneTable at decided
  split at decided
  · cases e <;> cases decided
  · rename_i o chosen
    exact ⟨o, chosen, decided⟩
  · cases e <;> cases decided

theorem onlyOneTable_narrows (id : String) (each : List.Forall₂ Outcome.Narrows os os') :
    (onlyOneTable id os).Narrows (onlyOneTable id os') := by
  constructor
  · intro e decided
    obtain ⟨o, chosen, decided⟩ := onlyOneTable_decided decided
    obtain ⟨o', chosen, decided⟩ := applicable_single_of_narrows each chosen decided
    rw [onlyOneTable, chosen]
    exact decided
  · intro e leans
    exact onlyOneTable_leans.mpr (exists_leans_of_narrows each (onlyOneTable_leans.mp leans))

/-- The extent of a failing set bounds its outcome. First-applicable passes the extent of a child on,
and the algorithms with a default decide in spite of failures. -/
def narrowing : List Algorithm := [denyOverrides, permitOverrides, onlyOneApplicable]

theorem table_narrows {a : Algorithm} (listed : a ∈ narrowing) (id : String)
    (each : List.Forall₂ Outcome.Narrows os os') : (a.table id os).Narrows (a.table id os') := by
  cases a with
  | denyOverrides => exact overridesTable_narrows .deny each
  | permitOverrides => exact overridesTable_narrows .permit each
  | onlyOneApplicable => exact onlyOneTable_narrows id each
  | _ => simp [narrowing] at listed

end Algorithm

end AccessControl
