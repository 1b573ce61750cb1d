import Mathlib.Data.Set.Insert
import AccessControl.Proofs.Stability.Combine

namespace AccessControl

theorem Decision.ofEffect_ne_notApplicable (e : Effect) : ofEffect e ≠ notApplicable := by
  cases e <;> simp [ofEffect]

/-- The decision is the only one of these, or a failure with the effects among them. -/
structure Decision.Lifts (d : Decision) (S : Set Decision) : Prop where
  settled : ∀ d', S = {d'} → d = d'
  unsettled : (∀ d', S ≠ {d'}) → ∃ x r, d = .indeterminate x r ∧ ∀ e, x.Covers e ↔ .ofEffect e ∈ S

theorem Decision.Lifts.of_single {d : Decision} {S : Set Decision} (single : S = {d}) : d.Lifts S where
  settled _ same := Set.singleton_injective (single.symm.trans same)
  unsettled several := absurd single (several d)

namespace Outcome

theorem Completion.narrows {o o' : Outcome} (completion : Completion o o') : o.Narrows o' := by
  cases completion with
  | settled => exact .refl _
  | silent x r => exact .of_failed (fun e leans => absurd leans Decision.notApplicable_leans) r
  | effect x r e covers =>
    refine .of_failed (fun f leans => ?_) r
    rw [Decision.ofEffect_leans.mp leans]
    exact covers

/-- A failure turns out to have the chosen effect where its extent covers it, and none elsewhere. -/
def fill (choice : Option Effect) (o : Outcome) : Outcome :=
  match o.decision, choice with
  | .indeterminate x _, some e => if x.Covers e then ⟨.ofEffect e, []⟩ else .notApplicable
  | .indeterminate _ _, none => .notApplicable
  | _, _ => o

theorem completion_fill (choice : Option Effect) (o : Outcome) : Completion o (o.fill choice) := by
  obtain ⟨d, bs⟩ := o
  cases d with
  | indeterminate x r =>
    cases choice with
    | none => exact .silent x r bs []
    | some e =>
      unfold fill
      by_cases covers : x.Covers e
      · simp only [covers, if_true]
        exact .effect x r e covers bs []
      · simp only [covers, if_false]
        exact .silent x r bs []
  | _ => exact .settled _ (by simp)

theorem fill_decided {choice : Option Effect} {o : Outcome} {e : Effect} :
    (o.fill choice).decision = .ofEffect e ↔
      o.decision = .ofEffect e ∨ (choice = some e ∧ o.decision.Leans e) := by
  obtain ⟨d, bs⟩ := o
  rcases d.kinds with rfl | ⟨f, rfl⟩ | ⟨x, r, rfl⟩
  · simp [fill, Decision.notApplicable_leans]
  · have kept : fill choice ⟨.ofEffect f, bs⟩ = ⟨.ofEffect f, bs⟩ := by cases f <;> rfl
    rw [kept, Decision.ofEffect_leans]
    cases e <;> cases f <;> simp [Decision.ofEffect]
  · rw [Decision.indeterminate_leans]
    cases choice with
    | none => cases e <;> simp [fill, notApplicable, Decision.ofEffect]
    | some f =>
      by_cases covers : x.Covers f <;> cases e <;> cases f <;>
        simp [fill, notApplicable, Decision.ofEffect, covers]

end Outcome

namespace Algorithm

open Outcome (Completion)

def overriding : Effect → Algorithm
  | .permit => permitOverrides
  | .deny => denyOverrides

def Occurs (e : Effect) (os : List Outcome) : Prop := ∃ o ∈ os, o.decision = .ofEffect e

instance (e : Effect) (os : List Outcome) : Decidable (Occurs e os) :=
  inferInstanceAs (Decidable (∃ o ∈ os, o.decision = .ofEffect e))

def verdict (winner : Effect) (os : List Outcome) : Decision :=
  if Occurs winner os then .ofEffect winner
  else if Occurs winner.opposite os then .ofEffect winner.opposite
  else .notApplicable

/-- The verdicts on all that the outcomes can turn out to be. -/
def verdicts (winner : Effect) (os : List Outcome) : Set Decision :=
  {d | ∃ os', List.Forall₂ Completion os os' ∧ verdict winner os' = d}

variable {winner e : Effect} {os : List Outcome}

theorem combine_overriding (winner : Effect) (id : String) (os : List Outcome) :
    (overriding winner).combine id os = overridesTable winner os := by
  rw [combine_eq_table]
  cases winner <;> rfl

theorem completions_fill (choice : Option Effect) (os : List Outcome) :
    List.Forall₂ Completion os (os.map (Outcome.fill choice)) := by
  rw [List.forall₂_map_right_iff, List.forall₂_same]
  exact fun o _ => o.completion_fill choice

theorem occurs_fill {choice : Option Effect} :
    Occurs e (os.map (Outcome.fill choice)) ↔
      Occurs e os ∨ (choice = some e ∧ ∃ o ∈ os, o.decision.Leans e) := by
  constructor
  · rintro ⟨o', member, decided⟩
    obtain ⟨o, listed, rfl⟩ := List.mem_map.mp member
    rcases Outcome.fill_decided.mp decided with before | ⟨chosen, leans⟩
    · exact .inl ⟨o, listed, before⟩
    · exact .inr ⟨chosen, o, listed, leans⟩
  · rintro (⟨o, member, decided⟩ | ⟨chosen, o, member, leans⟩)
    · exact ⟨_, List.mem_map_of_mem member, Outcome.fill_decided.mpr (.inl decided)⟩
    · exact ⟨_, List.mem_map_of_mem member, Outcome.fill_decided.mpr (.inr ⟨chosen, leans⟩)⟩

theorem verdict_eq_winner : verdict winner os = .ofEffect winner ↔ Occurs winner os := by
  have other := winner.ne_opposite
  unfold verdict
  split <;> rename_i won
  · simp [won]
  · split <;> simp [won, Decision.ofEffect_inj, other.symm, (Decision.ofEffect_ne_notApplicable _).symm]

theorem verdict_eq_loser :
    verdict winner os = .ofEffect winner.opposite ↔ ¬Occurs winner os ∧ Occurs winner.opposite os := by
  have other := winner.ne_opposite
  unfold verdict
  split <;> rename_i won
  · simp [won, Decision.ofEffect_inj, other]
  · split <;> rename_i lost <;> simp [won, lost, (Decision.ofEffect_ne_notApplicable _).symm]

theorem verdict_eq_silent :
    verdict winner os = .notApplicable ↔ ¬Occurs winner os ∧ ¬Occurs winner.opposite os := by
  unfold verdict
  split <;> rename_i won
  · simp [won, Decision.ofEffect_ne_notApplicable]
  · split <;> rename_i lost <;> simp [won, lost, Decision.ofEffect_ne_notApplicable]

theorem occurs_leans (occurs : Occurs e os) : ∃ o ∈ os, o.decision.Leans e := by
  obtain ⟨o, member, decided⟩ := occurs
  exact ⟨o, member, Decision.leans_iff.mpr (.inl decided)⟩

theorem occurs_of_completions {os' : List Outcome} (each : List.Forall₂ Completion os os')
    (occurs : Occurs e os) : Occurs e os' :=
  exists_decided_of_narrows (each.imp fun _ _ => Completion.narrows) occurs

theorem leans_of_completions {os' : List Outcome} (each : List.Forall₂ Completion os os')
    (occurs : Occurs e os') : ∃ o ∈ os, o.decision.Leans e :=
  exists_leans_of_narrows (each.imp fun _ _ => Completion.narrows) (occurs_leans occurs)

theorem verdict_mem (choice : Option Effect) (os : List Outcome) :
    verdict winner (os.map (Outcome.fill choice)) ∈ verdicts winner os :=
  ⟨_, completions_fill choice os, rfl⟩

theorem winner_mem_verdicts : .ofEffect winner ∈ verdicts winner os ↔ ∃ o ∈ os, o.decision.Leans winner := by
  constructor
  · rintro ⟨os', each, won⟩
    exact leans_of_completions each (verdict_eq_winner.mp won)
  · intro leans
    have won : Occurs winner (os.map (Outcome.fill (some winner))) := occurs_fill.mpr (.inr ⟨rfl, leans⟩)
    rw [← verdict_eq_winner.mpr won]
    exact verdict_mem _ os

theorem loser_mem_verdicts (unwon : ¬Occurs winner os) :
    .ofEffect winner.opposite ∈ verdicts winner os ↔ ∃ o ∈ os, o.decision.Leans winner.opposite := by
  constructor
  · rintro ⟨os', each, lost⟩
    exact leans_of_completions each (verdict_eq_loser.mp lost).2
  · intro leans
    have lost : Occurs winner.opposite (os.map (Outcome.fill (some winner.opposite))) :=
      occurs_fill.mpr (.inr ⟨rfl, leans⟩)
    have unwon' : ¬Occurs winner (os.map (Outcome.fill (some winner.opposite))) := by
      rw [occurs_fill]
      simp [unwon, winner.ne_opposite.symm]
    rw [← verdict_eq_loser.mpr ⟨unwon', lost⟩]
    exact verdict_mem _ os

theorem silent_mem_verdicts :
    .notApplicable ∈ verdicts winner os ↔ ¬Occurs winner os ∧ ¬Occurs winner.opposite os := by
  constructor
  · rintro ⟨os', each, silent⟩
    obtain ⟨unwon, unlost⟩ := verdict_eq_silent.mp silent
    exact ⟨mt (occurs_of_completions each) unwon, mt (occurs_of_completions each) unlost⟩
  · intro unsaid
    have silent : verdict winner (os.map (Outcome.fill none)) = .notApplicable := by
      rw [verdict_eq_silent, occurs_fill, occurs_fill]
      simp [unsaid.1, unsaid.2]
    rw [← silent]
    exact verdict_mem none os

theorem leans_iff_mem_verdicts (unwon : ¬Occurs winner os) :
    (overridesTable winner os).decision.Leans e ↔ .ofEffect e ∈ verdicts winner os := by
  rw [overridesTable_leans_iff unwon]
  rcases e.eq_or_opposite winner with rfl | rfl
  · exact winner_mem_verdicts.symm
  · exact (loser_mem_verdicts unwon).symm

theorem verdicts_won (won : Occurs winner os) : verdicts winner os = {.ofEffect winner} := by
  rw [Set.eq_singleton_iff_unique_mem]
  refine ⟨winner_mem_verdicts.mpr (occurs_leans won), ?_⟩
  rintro d ⟨os', each, rfl⟩
  exact verdict_eq_winner.mpr (occurs_of_completions each won)

theorem verdict_kinds (winner : Effect) (os : List Outcome) :
    verdict winner os = .notApplicable ∨ ∃ e, verdict winner os = .ofEffect e := by
  unfold verdict
  split
  · exact .inr ⟨winner, rfl⟩
  · split
    · exact .inr ⟨winner.opposite, rfl⟩
    · exact .inl rfl

theorem verdicts_silent (unwon : ¬Occurs winner os)
    (silent : (overridesTable winner os).decision = .notApplicable) :
    verdicts winner os = {.notApplicable} := by
  have unleaning (e : Effect) : .ofEffect e ∉ verdicts winner os := by
    rw [← leans_iff_mem_verdicts unwon, silent]
    exact Decision.notApplicable_leans
  have unlost : ¬Occurs winner.opposite os := fun lost =>
    unleaning _ ((loser_mem_verdicts unwon).mpr (occurs_leans lost))
  rw [Set.eq_singleton_iff_unique_mem]
  refine ⟨silent_mem_verdicts.mpr ⟨unwon, unlost⟩, ?_⟩
  rintro d ⟨os', each, rfl⟩
  rcases verdict_kinds winner os' with none | ⟨e, decided⟩
  · exact none
  · exact absurd ⟨os', each, decided⟩ (unleaning e)

theorem verdicts_lost (unwon : ¬Occurs winner os)
    (decided : (overridesTable winner os).decision = .ofEffect e) : verdicts winner os = {.ofEffect e} := by
  obtain ⟨_, lost, rfl⟩ := (overridesTable_lost_iff unwon).mp decided
  rw [Set.eq_singleton_iff_unique_mem]
  refine ⟨(loser_mem_verdicts unwon).mpr (occurs_leans lost), ?_⟩
  rintro d ⟨os', each, rfl⟩
  rcases verdict_kinds winner os' with silent | ⟨f, chosen⟩
  · exact absurd lost (silent_mem_verdicts.mp ⟨os', each, silent⟩).2
  · have leans := (leans_iff_mem_verdicts unwon).mpr ⟨os', each, chosen⟩
    rw [decided, Decision.ofEffect_leans] at leans
    rw [chosen, leans]

theorem verdicts_failed (unwon : ¬Occurs winner os) {x : Extent} {r : Reason}
    (failed : (overridesTable winner os).decision = .indeterminate x r) (d : Decision) :
    verdicts winner os ≠ {d} := by
  intro single
  have only {d' : Decision} (member : d' ∈ verdicts winner os) : d' = d := by
    rw [single] at member
    exact member
  obtain ⟨e, covers⟩ := x.exists_covers
  have leans : .ofEffect e ∈ verdicts winner os := by
    rw [← leans_iff_mem_verdicts unwon, failed]
    exact Decision.indeterminate_leans.mpr covers
  have lost : Occurs winner.opposite os := by
    by_contra unlost
    exact Decision.ofEffect_ne_notApplicable e
      ((only leans).trans (only (silent_mem_verdicts.mpr ⟨unwon, unlost⟩)).symm)
  -- the loser is the one verdict, so nothing leans to the winner and the loser should have decided
  have unleaning : ¬∃ o ∈ os, o.decision.Leans winner := by
    intro towards
    have same := (only (winner_mem_verdicts.mpr towards)).trans
      (only ((loser_mem_verdicts unwon).mpr (occurs_leans lost))).symm
    exact winner.ne_opposite (Decision.ofEffect_inj.mp same)
  have decided := (overridesTable_lost_iff unwon).mpr ⟨unleaning, lost, rfl⟩
  rw [failed] at decided
  cases winner <;> cases decided

/-- Overriding decides what all completions of the outcomes agree on, and otherwise fails with the
effects among their verdicts. -/
theorem overriding_lifts (winner : Effect) (id : String) (os : List Outcome) :
    ((overriding winner).combine id os).decision.Lifts (verdicts winner os) := by
  rw [combine_overriding]
  by_cases won : Occurs winner os
  · rw [overridesTable_won won]
    exact .of_single (verdicts_won won)
  · rcases (overridesTable winner os).decision.kinds with silent | ⟨e, decided⟩ | ⟨x, r, failed⟩
    · rw [silent]
      exact .of_single (verdicts_silent won silent)
    · rw [decided]
      exact .of_single (verdicts_lost won decided)
    · refine ⟨fun d single => absurd single (verdicts_failed won failed d), fun _ => ?_⟩
      refine ⟨x, r, failed, fun e => ?_⟩
      rw [← leans_iff_mem_verdicts won, failed, Decision.indeterminate_leans]

end Algorithm

end AccessControl
