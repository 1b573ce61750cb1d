import AccessControl.Proofs.Reasons.Expression

namespace AccessControl

variable {val : Valuation} {r : Reason}

theorem Decision.ofEffect_ne_indeterminate {e : Effect} {x : Extent} : ofEffect e ≠ .indeterminate x r := by
  cases e <;> simp [ofEffect]

theorem Rule.eager_raises {rule : Rule} {x : Extent}
    (failed : (rule.eager val).decision = .indeterminate x r) : Raises val rule.attributes r := by
  rw [Rule.eager] at failed
  rcases truth : (Expression.eagerIfPresent val rule.target).bind fun b =>
      if b then Expression.eagerIfPresent val rule.condition else .ok false with e | _ | _
  · rw [truth] at failed
    cases failed
    rcases bind_eq_error.mp truth with target | ⟨b, _, condition⟩
    · exact (Expression.eagerIfPresent_raises target).mono (List.subset_append_left _ _)
    · cases b with
      | false => cases condition
      | true => exact (Expression.eagerIfPresent_raises condition).mono (List.subset_append_right _ _)
  · rw [truth] at failed
    cases failed
  · rw [truth] at failed
    cases effect : rule.effect <;> rw [Rule.outcome, effect] at failed <;> cases failed

namespace Algorithm

variable {os : List Outcome} {x : Extent}

theorem mem_leaning {y : Extent} (member : r ∈ os.filterMap (Outcome.leaning? y)) :
    ∃ o ∈ os, ∃ y, o.decision = .indeterminate y r := by
  obtain ⟨o, inside, found⟩ := List.mem_filterMap.mp member
  unfold Outcome.leaning? at found
  split at found
  · rename_i decision
    split at found <;> cases found
    exact ⟨o, inside, _, decision⟩
  · cases found

theorem overridesRow_reason {winner : Effect} {won lost : List Outcome}
    {both towardsWinner towardsLoser : List Reason}
    (failed : (overridesRow winner won both towardsWinner lost towardsLoser).decision = .indeterminate x r) :
    r ∈ both ∨ r ∈ towardsWinner ∨ r ∈ towardsLoser := by
  cases won with
  | cons o rest => exact absurd failed Decision.ofEffect_ne_indeterminate
  | nil =>
    cases both with
    | cons cause rest =>
      cases failed
      exact .inl List.mem_cons_self
    | nil =>
      cases towardsWinner with
      | cons cause rest =>
        refine .inr (.inl ?_)
        cases lost <;> cases towardsLoser <;> cases failed <;> exact List.mem_cons_self
      | nil =>
        cases lost with
        | cons o rest => exact absurd failed Decision.ofEffect_ne_indeterminate
        | nil =>
          cases towardsLoser with
          | cons cause rest =>
            cases failed
            exact .inr (.inr List.mem_cons_self)
          | nil => cases failed

theorem overridesTable_reason {winner : Effect}
    (failed : (overridesTable winner os).decision = .indeterminate x r) :
    ∃ o ∈ os, ∃ y, o.decision = .indeterminate y r := by
  rcases overridesRow_reason failed with both | towardsWinner | towardsLoser
  · exact mem_leaning both
  · exact mem_leaning towardsWinner
  · exact mem_leaning towardsLoser

theorem otherwiseTable_decided {winner : Effect} :
    (otherwiseTable winner os).decision ≠ .indeterminate x r := by
  unfold otherwiseTable
  split
  · exact Decision.ofEffect_ne_indeterminate
  · exact Decision.ofEffect_ne_indeterminate

theorem mem_applicable {o : Outcome} {rest : List Outcome} (chosen : applicable os = o :: rest) : o ∈ os := by
  have member : o ∈ applicable os := chosen ▸ List.mem_cons_self
  exact (List.mem_filter.mp member).1

theorem table_reason {a : Algorithm} {id : String} (failed : (a.table id os).decision = .indeterminate x r) :
    (∃ o ∈ os, ∃ y, o.decision = .indeterminate y r) ∨
      (a = .onlyOneApplicable ∧ r = .multipleApplicable id ∧ 2 ≤ (applicable os).length) := by
  cases a with
  | denyOverrides => exact .inl (overridesTable_reason failed)
  | permitOverrides => exact .inl (overridesTable_reason failed)
  | firstApplicable =>
    simp only [table, firstTable] at failed
    split at failed
    · cases failed
    · rename_i o rest chosen
      exact .inl ⟨o, mem_applicable chosen, x, failed⟩
  | onlyOneApplicable =>
    simp only [table, onlyOneTable] at failed
    rcases chosen : applicable os with _ | ⟨o, _ | ⟨o', rest⟩⟩
    · rw [chosen] at failed
      cases failed
    · rw [chosen] at failed
      exact .inl ⟨o, mem_applicable chosen, x, failed⟩
    · rw [chosen] at failed
      cases failed
      exact .inr ⟨rfl, rfl, by simp⟩
  | denyUnlessPermit => exact absurd failed otherwiseTable_decided
  | permitUnlessDeny => exact absurd failed otherwiseTable_decided

end Algorithm

theorem Policy.targetFailure_reason {p : Policy} {cause : Reason} {x : Extent}
    (failed : (targetFailure p cause).decision = .indeterminate x r) : r = cause := by
  unfold targetFailure at failed
  split at failed <;> cases failed
  rfl

theorem Policy.eager_raises {p : Policy} {x : Extent} (failed : (p.eager val).decision = .indeterminate x r) :
    Raises val p.attributes r ∨ ∃ id, r = .multipleApplicable id := by
  induction p generalizing x with
  | rule rule => exact .inl (Rule.eager_raises failed)
  | set h ps each =>
    rw [eager_set] at failed
    rcases truth : Expression.eagerIfPresent val h.target with e | _ | _
    · rw [truth] at failed
      rw [targetFailure_reason failed]
      exact .inl ((Expression.eagerIfPresent_raises truth).mono (List.subset_append_left _ _))
    · rw [truth] at failed
      cases failed
    · rw [truth, targeted, SetHeader.addObligations_decision] at failed
      rcases Algorithm.table_reason failed with ⟨o, member, y, reason⟩ | ⟨_, ambiguous, _⟩
      · rw [eagerAll_eq_map] at member
        obtain ⟨p, child, rfl⟩ := List.mem_map.mp member
        have below : p.attributes ⊆ (set h ps).attributes :=
          List.subset_append_of_subset_right _ fun a inside => mem_attributesOf.mpr ⟨p, child, inside⟩
        exact (each p child reason).imp_left fun raises => raises.mono below
      · exact .inr ⟨h.id, ambiguous⟩

namespace Obligation

theorem eagerFulfill_raises {os : List Obligation} (failed : eagerFulfill val os = .error r) :
    ∃ o ∈ os, ∃ cause, r = .obligationFailed o.id cause ∧ Raises val (attributes os) cause := by
  obtain ⟨before, o, after, rfl, _, failed⟩ := mapM_eq_error.mp failed
  have member : o ∈ before ++ o :: after := by simp
  cases assigned : eagerAssign val o.assignments with
  | ok as =>
    rw [assigned] at failed
    cases failed
  | error cause =>
    rw [assigned] at failed
    cases failed
    obtain ⟨first, a, later, split, _, failed⟩ := mapM_eq_error.mp assigned
    have listed : a ∈ o.assignments := by simp [split]
    have own : a.value.attributes ⊆ attributes (before ++ o :: after) := by
      intro b mentioned
      exact List.mem_flatMap.mpr ⟨o, member, List.mem_flatMap.mpr ⟨a, listed, mentioned⟩⟩
    exact ⟨o, member, cause, rfl, (Expression.eager_raises (map_eq_error.mp failed)).mono own⟩

end Obligation

end AccessControl
