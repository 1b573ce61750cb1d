import AccessControl.Proofs.Eager.Policy
import AccessControl.Proofs.Extent.Cover

namespace AccessControl

/-- The decision has and could have had no effect beyond the bound. -/
structure Decision.Within (d : Decision) (bound : Option Extent) : Prop where
  effect : ∀ e, d = .ofEffect e → ∃ x, bound = some x ∧ x.Covers e
  failure : ∀ y r, d = .indeterminate y r → ∃ x, bound = some x ∧ ∀ e, y.Covers e → x.Covers e
  silence : bound = none → d = .notApplicable

theorem Decision.Within.of_leans {d : Decision} {bound : Option Extent}
    (leans : ∀ e, d.Leans e → ∃ x, bound = some x ∧ x.Covers e) : d.Within bound where
  effect e decided := by
    subst decided
    exact leans e (ofEffect_leans.mpr rfl)
  failure y r failed := by
    subst failed
    obtain ⟨f, covers⟩ := y.exists_covers
    obtain ⟨x, known, _⟩ := leans f (indeterminate_leans.mpr covers)
    refine ⟨x, known, fun e covers => ?_⟩
    obtain ⟨x', same, covers⟩ := leans e (indeterminate_leans.mpr covers)
    rw [known] at same
    cases same
    exact covers
  silence unknown := by
    apply eq_notApplicable
    intro e found
    obtain ⟨x, known, _⟩ := leans e found
    rw [unknown] at known
    cases known

theorem Rule.outcome_leans {r : Rule} {b : Except Reason Bool} {e : Effect}
    (leans : (r.outcome b).decision.Leans e) : e = r.effect := by
  rcases b with _ | _ | _
  · exact Extent.ofEffect_covers.mp (Decision.indeterminate_leans.mp leans)
  · exact absurd leans Decision.notApplicable_leans
  · exact Decision.ofEffect_leans.mp leans

namespace Policy

def CanHave (p : Policy) (e : Effect) : Prop := ∃ x, p.possibleEffects = some x ∧ x.Covers e

theorem rule_canHave {r : Rule} {e : Effect} : (rule r).CanHave e ↔ e = r.effect := by
  simp only [CanHave, possibleEffects, Option.some.injEq, exists_eq_left', Extent.ofEffect_covers]

theorem mem_possibleEffectsOf {x : Extent} {ps : List Policy} :
    x ∈ possibleEffectsOf ps ↔ ∃ p ∈ ps, p.possibleEffects = some x := by
  induction ps with
  | nil => simp [possibleEffectsOf]
  | cons p ps ih => simp [possibleEffectsOf, ih]

theorem set_canHave {h : SetHeader} {ps : List Policy} {e : Effect} :
    (set h ps).CanHave e ↔ (∃ p ∈ ps, p.CanHave e) ∨ h.algorithm.default? = some e := by
  simp only [CanHave, possibleEffects, Extent.unionAll_covers, List.mem_append, mem_possibleEffectsOf,
    Option.mem_toList, Option.map_eq_some_iff]
  constructor
  · rintro ⟨x, ⟨p, member, known⟩ | ⟨f, default, rfl⟩, covers⟩
    · exact .inl ⟨p, member, x, known, covers⟩
    · exact .inr (by rw [default, Extent.ofEffect_covers.mp covers])
  · rintro (⟨p, member, x, known, covers⟩ | default)
    · exact ⟨x, .inl ⟨p, member, known⟩, covers⟩
    · exact ⟨.ofEffect e, .inr ⟨e, default, rfl⟩, Extent.ofEffect_covers.mpr rfl⟩

theorem targetFailure_leans {p : Policy} {r : Reason} {e : Effect} :
    (targetFailure p r).decision.Leans e ↔ p.CanHave e := by
  unfold targetFailure CanHave
  cases p.possibleEffects with
  | some x => simp [Outcome.indeterminate, Decision.indeterminate_leans]
  | none => simp [Outcome.notApplicable, Decision.notApplicable_leans]

theorem eager_leans {val : Valuation} {p : Policy} {e : Effect} (leans : (p.eager val).decision.Leans e) :
    p.CanHave e := by
  induction p with
  | rule r => exact rule_canHave.mpr (Rule.outcome_leans leans)
  | set h ps each =>
    rw [eager_set] at leans
    rcases truth : Expression.eagerIfPresent val h.target with r | _ | _ <;> rw [truth] at leans
    · exact targetFailure_leans.mp leans
    · exact absurd leans Decision.notApplicable_leans
    · rw [targeted, SetHeader.addObligations_decision] at leans
      rw [set_canHave]
      rcases Algorithm.table_leans leans with ⟨o, member, leans⟩ | default
      · rw [eagerAll_eq_map] at member
        obtain ⟨p, child, rfl⟩ := List.mem_map.mp member
        exact .inl ⟨p, child, each p child leans⟩
      · exact .inr default

end Policy

theorem Outcome.eagerRespond_leans {val : Valuation} {o : Outcome} {e : Effect}
    (leans : (o.eagerRespond val).decision.Leans e) : o.decision.Leans e := by
  unfold eagerRespond at leans
  split at leans
  · exact leans
  · rename_i f decided
    unfold answer at leans
    split at leans
    · exact leans
    · have same := Extent.ofEffect_covers.mp (Decision.indeterminate_leans.mp leans)
      rw [same, Decision.eq_ofEffect decided]
      exact Decision.ofEffect_leans.mpr rfl

/-- The effects that a tree can have by its structure bound its evaluation, from any cache and with
any resolver, and its response, also where an obligation fails. -/
theorem Policy.possibleEffects_bound (ctx : Context) (p : Policy) (c : Cache) :
    (p.evaluate ctx c).1.decision.Within p.possibleEffects ∧
      (p.respond ctx).1.decision.Within p.possibleEffects := by
  constructor
  · obtain ⟨val, outcome⟩ := p.exists_eager ctx c
    rw [outcome]
    exact .of_leans fun e leans => eager_leans leans
  · obtain ⟨val, response⟩ := p.exists_eagerRespond ctx
    rw [response]
    exact .of_leans fun e leans => eager_leans (Outcome.eagerRespond_leans leans)

end AccessControl
