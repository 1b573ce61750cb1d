import AccessControl.Proofs.Combine.Table

namespace AccessControl

/-- The outcome has these obligations for the effect that it decides, and none without one. -/
structure Outcome.Gathers (o : Outcome) (gathered : Effect → List Obligation) : Prop where
  undecided : o.decision.effect? = none → o.obligations = []
  decided : ∀ e, o.decision = .ofEffect e → o.obligations = gathered e

namespace Outcome.Gathers

variable {gathered : Effect → List Obligation}

theorem notApplicable : Outcome.notApplicable.Gathers gathered where
  undecided _ := rfl
  decided e decided := by cases e <;> cases decided

theorem indeterminate (x : Extent) (r : Reason) : (Outcome.indeterminate x r).Gathers gathered where
  undecided _ := rfl
  decided e decided := by cases e <;> cases decided

theorem effect {e : Effect} {os : List Obligation} (same : os = gathered e) :
    Outcome.Gathers ⟨.ofEffect e, os⟩ gathered where
  undecided undecided := by
    rw [Decision.ofEffect_effect?] at undecided
    cases undecided
  decided f decided := by
    have equal : e = f := by cases e <;> cases f <;> first | rfl | cases decided
    rw [same, equal]

theorem addObligations {o : Outcome} (gathers : o.Gathers gathered) (h : SetHeader) :
    (h.addObligations o).Gathers fun e => gathered e ++ Obligation.forEffect h.obligations e where
  undecided undecided := by
    rw [h.addObligations_decision] at undecided
    simp only [SetHeader.addObligations, undecided]
    exact gathers.undecided undecided
  decided e decided := by
    rw [h.addObligations_decision] at decided
    have effect : o.decision.effect? = some e := by rw [decided, Decision.ofEffect_effect?]
    simp only [SetHeader.addObligations, effect, gathers.decided e decided]

end Outcome.Gathers

namespace Algorithm

variable {os : List Outcome}

theorem filter_settling {a : Algorithm} {p : Outcome → Bool} (pulled : a.pulled os = os)
    (settling : ∀ o, p o = a.settles o.decision) {o : Outcome} {rest : List Outcome}
    (found : os.filter p = o :: rest) : rest = [] := by
  rcases a.pulled_cases os with ⟨none, _⟩ | ⟨before, last, after, _, none, settled, upTo⟩
  · have empty : os.filter p = [] := by simpa [List.filter_eq_nil_iff, settling] using none
    rw [empty] at found
    cases found
  · have unsettled (o : Outcome) (member : o ∈ before) : p o = false := by rw [settling, none o member]
    have only := filter_first unsettled ((settling last).trans settled) []
    rw [← upTo, pulled, found] at only
    exact (List.cons.inj only).2

/-- The first outcome for the winner gives its obligations alone, and all those for the loser give
theirs. -/
def collected (winner : Effect) (os : List Outcome) (e : Effect) : List Obligation :=
  if e = winner then ((os.find? (Outcome.decides winner)).map Outcome.obligations).getD []
  else Outcome.obligationsFor e os

theorem collected_winner {winner : Effect} {o : Outcome} {rest : List Outcome}
    (won : os.filter (Outcome.decides winner) = o :: rest) : collected winner os winner = o.obligations := by
  rw [collected, if_pos rfl, ← List.head?_filter, won]
  rfl

theorem collected_loser (winner : Effect) (os : List Outcome) :
    collected winner os winner.opposite = Outcome.obligationsFor winner.opposite os := by
  rw [collected, if_neg]
  cases winner <;> decide

theorem collected_single {winner : Effect}
    (single : ∀ o rest, os.filter (Outcome.decides winner) = o :: rest → rest = []) :
    collected winner os = fun e => Outcome.obligationsFor e os := by
  funext e
  by_cases wins : e = winner
  · subst wins
    cases won : os.filter (Outcome.decides e) with
    | nil => rw [collected, if_pos rfl, ← List.head?_filter, Outcome.obligationsFor, won]; rfl
    | cons o rest =>
      rw [collected_winner won, Outcome.obligationsFor, won, single o rest won, List.flatMap_singleton]
  · rw [collected, if_neg wins]

theorem overridesTable_collects (winner : Effect) (os : List Outcome) :
    (overridesTable winner os).Gathers (collected winner os) := by
  unfold overridesTable
  cases won : os.filter (Outcome.decides winner) with
  | cons o rest => exact .effect (collected_winner won).symm
  | nil =>
    cases os.filterMap (Outcome.leaning? .permitOrDeny) with
    | cons r _ => exact .indeterminate _ r
    | nil =>
      cases os.filterMap (Outcome.leaning? (.ofEffect winner)) with
      | cons r _ =>
        cases os.filter (Outcome.decides winner.opposite) <;>
          cases os.filterMap (Outcome.leaning? (.ofEffect winner.opposite)) <;> exact .indeterminate _ r
      | nil =>
        cases lost : os.filter (Outcome.decides winner.opposite) with
        | cons o rest =>
          apply Outcome.Gathers.effect
          rw [collected_loser, Outcome.obligationsFor, lost]
        | nil =>
          cases os.filterMap (Outcome.leaning? (.ofEffect winner.opposite)) with
          | cons r _ => exact .indeterminate _ r
          | nil => exact .notApplicable

theorem otherwiseTable_collects (winner : Effect) (os : List Outcome) :
    (otherwiseTable winner os).Gathers (collected winner os) := by
  unfold otherwiseTable
  cases won : os.filter (Outcome.decides winner) with
  | cons o rest => exact .effect (collected_winner won).symm
  | nil => exact .effect (collected_loser winner os).symm

theorem overridesTable_gathers {winner : Effect}
    (single : ∀ o rest, os.filter (Outcome.decides winner) = o :: rest → rest = []) :
    (overridesTable winner os).Gathers fun e => Outcome.obligationsFor e os := by
  rw [← collected_single single]
  exact overridesTable_collects winner os

theorem gathers_of_applicable {o : Outcome} (chosen : applicable os = [o])
    (undecided : o.decision.effect? = none → o.obligations = []) :
    o.Gathers fun e => Outcome.obligationsFor e os where
  undecided := undecided
  decided e decided := by
    have within : os.filter (Outcome.decides e) = (applicable os).filter (Outcome.decides e) := by
      rw [applicable, List.filter_filter]
      apply List.filter_congr
      intro o _
      cases decides : o.decides e with
      | false => rfl
      | true =>
        rw [Outcome.eq_of_decides decides, Decision.ofEffect_isApplicable]
        rfl
    have decides : o.decides e = true := by simp [Outcome.decides, decided]
    simp [Outcome.obligationsFor, within, chosen, decides]

theorem firstTable_gathers (single : ∀ o rest, applicable os = o :: rest → rest = [])
    (undecided : ∀ o ∈ os, o.decision.effect? = none → o.obligations = []) :
    (firstTable os).Gathers fun e => Outcome.obligationsFor e os := by
  unfold firstTable
  cases chosen : applicable os with
  | nil => exact .notApplicable
  | cons o rest =>
    have member : o ∈ applicable os := chosen ▸ List.mem_cons_self
    rw [single o rest chosen] at chosen
    exact gathers_of_applicable chosen (undecided o (List.mem_filter.mp member).1)

theorem onlyOneTable_gathers (id : String)
    (undecided : ∀ o ∈ os, o.decision.effect? = none → o.obligations = []) :
    (onlyOneTable id os).Gathers fun e => Outcome.obligationsFor e os := by
  unfold onlyOneTable
  split
  · exact .notApplicable
  · rename_i o chosen
    have member : o ∈ applicable os := chosen ▸ List.mem_cons_self
    exact gathers_of_applicable chosen (undecided o (List.mem_filter.mp member).1)
  · exact .indeterminate _ _

theorem otherwiseTable_gathers {winner : Effect}
    (single : ∀ o rest, os.filter (Outcome.decides winner) = o :: rest → rest = []) :
    (otherwiseTable winner os).Gathers fun e => Outcome.obligationsFor e os := by
  rw [← collected_single single]
  exact otherwiseTable_collects winner os

theorem reduce_gathers (a : Algorithm) (id : String) (pulled : a.pulled os = os)
    (undecided : ∀ o ∈ os, o.decision.effect? = none → o.obligations = []) :
    (a.reduce id os).Gathers fun e => Outcome.obligationsFor e os := by
  rw [reduce_eq_table]
  cases a with
  | denyOverrides => exact overridesTable_gathers fun o rest => filter_settling pulled fun _ => rfl
  | permitOverrides => exact overridesTable_gathers fun o rest => filter_settling pulled fun _ => rfl
  | firstApplicable =>
    exact firstTable_gathers (fun o rest => filter_settling pulled fun _ => rfl) undecided
  | onlyOneApplicable => exact onlyOneTable_gathers id undecided
  | denyUnlessPermit => exact otherwiseTable_gathers fun o rest => filter_settling pulled fun _ => rfl
  | permitUnlessDeny => exact otherwiseTable_gathers fun o rest => filter_settling pulled fun _ => rfl

end Algorithm

end AccessControl
