import AccessControl.Proofs.Combine.Table

namespace AccessControl

namespace Effect

theorem eq_or_opposite (e f : Effect) : e = f ∨ e = f.opposite := by
  cases e <;> cases f <;> simp [opposite]

theorem ne_opposite (e : Effect) : e ≠ e.opposite := by
  cases e <;> simp [opposite]

end Effect

namespace Extent

def Covers (x : Extent) (e : Effect) : Prop := x = .permitOrDeny ∨ x = .ofEffect e

instance (x : Extent) (e : Effect) : Decidable (x.Covers e) :=
  inferInstanceAs (Decidable (x = .permitOrDeny ∨ x = .ofEffect e))

theorem permitOrDeny_covers (e : Effect) : permitOrDeny.Covers e := .inl rfl

theorem ofEffect_covers {f e : Effect} : (ofEffect f).Covers e ↔ e = f := by
  cases f <;> cases e <;> decide

theorem exists_covers (x : Extent) : ∃ e, x.Covers e := by
  cases x
  · exact ⟨.permit, by decide⟩
  · exact ⟨.deny, by decide⟩
  · exact ⟨.permit, by decide⟩

theorem union_covers {x y : Extent} {e : Effect} : (x.union y).Covers e ↔ x.Covers e ∨ y.Covers e := by
  cases x <;> cases y <;> cases e <;> decide

theorem foldl_union_covers {x : Extent} {xs : List Extent} {e : Effect} :
    (xs.foldl union x).Covers e ↔ ∃ y ∈ x :: xs, y.Covers e := by
  induction xs generalizing x with
  | nil => simp
  | cons y ys ih => simp [ih, union_covers, or_assoc]

theorem unionAll_covers {xs : List Extent} {e : Effect} :
    (∃ x, unionAll xs = some x ∧ x.Covers e) ↔ ∃ x ∈ xs, x.Covers e := by
  cases xs with
  | nil => simp [unionAll]
  | cons x xs => simp only [unionAll, Option.some.injEq, exists_eq_left', foldl_union_covers]

theorem covering_covers {xs : List Extent} (nonempty : xs ≠ []) {e : Effect} :
    (covering xs).Covers e ↔ ∃ x ∈ xs, x.Covers e := by
  rw [← unionAll_covers, unionAll_eq_covering nonempty]
  simp

end Extent

namespace Decision

def Leans (d : Decision) (e : Effect) : Prop := ∃ x, d.extent? = some x ∧ x.Covers e

theorem ofEffect_leans {f e : Effect} : (ofEffect f).Leans e ↔ e = f := by
  simp only [Leans, ofEffect_extent?, Option.some.injEq, exists_eq_left', Extent.ofEffect_covers]

theorem indeterminate_leans {x : Extent} {r : Reason} {e : Effect} :
    (indeterminate x r).Leans e ↔ x.Covers e := by
  simp only [Leans, extent?, Option.some.injEq, exists_eq_left']

theorem notApplicable_leans {e : Effect} : ¬notApplicable.Leans e := by
  rintro ⟨x, none, _⟩
  cases none

theorem leans_iff {d : Decision} {e : Effect} :
    d.Leans e ↔ d = .ofEffect e ∨ ∃ x r, d = .indeterminate x r ∧ x.Covers e := by
  rcases d.kinds with rfl | ⟨f, rfl⟩ | ⟨x, r, rfl⟩
  · simp [notApplicable_leans, (by cases e <;> simp [ofEffect] : notApplicable ≠ ofEffect e)]
  · rw [ofEffect_leans]
    cases e <;> cases f <;> simp [ofEffect]
  · rw [indeterminate_leans]
    cases e <;> simp [ofEffect]

theorem eq_notApplicable {d : Decision} (unleaning : ∀ e, ¬d.Leans e) : d = .notApplicable := by
  rcases d.kinds with silent | ⟨e, rfl⟩ | ⟨x, r, rfl⟩
  · exact silent
  · exact absurd (ofEffect_leans.mpr rfl) (unleaning e)
  · obtain ⟨e, covers⟩ := x.exists_covers
    exact absurd (indeterminate_leans.mpr covers) (unleaning e)

end Decision

/-- What an outcome can turn out to be: a failure is not applicable or has an effect that its extent
covers, and any other outcome stays. -/
inductive Outcome.Completion : Outcome → Outcome → Prop where
  | settled (o : Outcome) (settled : ∀ x r, o.decision ≠ .indeterminate x r) : Completion o o
  | silent (x : Extent) (r : Reason) (before after : List Obligation) :
    Completion ⟨.indeterminate x r, before⟩ ⟨.notApplicable, after⟩
  | effect (x : Extent) (r : Reason) (e : Effect) (covers : x.Covers e) (before after : List Obligation) :
    Completion ⟨.indeterminate x r, before⟩ ⟨.ofEffect e, after⟩

namespace Algorithm

theorem mem_decides {e : Effect} {o : Outcome} {os : List Outcome}
    (member : o ∈ os.filter (Outcome.decides e)) : o ∈ os ∧ o.decision = .ofEffect e := by
  obtain ⟨member, decides⟩ := List.mem_filter.mp member
  exact ⟨member, congrArg Outcome.decision (Outcome.eq_of_decides decides)⟩

theorem decides_ne_nil {e : Effect} {os : List Outcome} :
    os.filter (Outcome.decides e) ≠ [] ↔ ∃ o ∈ os, o.decision = .ofEffect e := by
  constructor
  · intro some
    obtain ⟨o, member⟩ := List.exists_mem_of_ne_nil _ some
    exact ⟨o, mem_decides member⟩
  · rintro ⟨o, member, decided⟩
    have decides : o.decides e = true := by
      rw [Outcome.decides, decided, Decision.ofEffect_effect?, beq_self_eq_true]
    exact List.ne_nil_of_mem (List.mem_filter.mpr ⟨member, decides⟩)

theorem leaning?_eq_some {x : Extent} {r : Reason} {o : Outcome} :
    o.leaning? x = some r ↔ o.decision = .indeterminate x r := by
  obtain ⟨d, bs⟩ := o
  cases d with
  | indeterminate y r' =>
    by_cases same : x = y
    · simp [Outcome.leaning?, same]
    · simp [Outcome.leaning?, same, Ne.symm same]
  | _ => simp [Outcome.leaning?]

theorem leaning_ne_nil {x : Extent} {os : List Outcome} :
    os.filterMap (Outcome.leaning? x) ≠ [] ↔ ∃ o ∈ os, ∃ r, o.decision = .indeterminate x r := by
  constructor
  · intro some
    obtain ⟨r, member⟩ := List.exists_mem_of_ne_nil _ some
    obtain ⟨o, member, leaning⟩ := List.mem_filterMap.mp member
    exact ⟨o, member, r, leaning?_eq_some.mp leaning⟩
  · rintro ⟨o, member, r, failed⟩
    exact List.ne_nil_of_mem (List.mem_filterMap.mpr ⟨o, member, leaning?_eq_some.mpr failed⟩)

theorem exists_leans_iff {e : Effect} {os : List Outcome} :
    (∃ o ∈ os, o.decision.Leans e) ↔ os.filter (Outcome.decides e) ≠ [] ∨
      os.filterMap (Outcome.leaning? .permitOrDeny) ≠ [] ∨
      os.filterMap (Outcome.leaning? (.ofEffect e)) ≠ [] := by
  rw [decides_ne_nil, leaning_ne_nil, leaning_ne_nil]
  constructor
  · rintro ⟨o, member, leans⟩
    rcases Decision.leans_iff.mp leans with decided | ⟨x, r, failed, rfl | rfl⟩
    · exact .inl ⟨o, member, decided⟩
    · exact .inr (.inl ⟨o, member, r, failed⟩)
    · exact .inr (.inr ⟨o, member, r, failed⟩)
  · rintro (⟨o, member, decided⟩ | ⟨o, member, r, failed⟩ | ⟨o, member, r, failed⟩)
    · exact ⟨o, member, Decision.leans_iff.mpr (.inl decided)⟩
    · exact ⟨o, member, Decision.leans_iff.mpr (.inr ⟨_, r, failed, .inl rfl⟩)⟩
    · exact ⟨o, member, Decision.leans_iff.mpr (.inr ⟨_, r, failed, .inr rfl⟩)⟩

theorem overridesRow_leans {winner e : Effect} {both towardsWinner towardsLoser : List Reason}
    {lost : List Outcome} :
    (overridesRow winner [] both towardsWinner lost towardsLoser).decision.Leans e ↔
      both ≠ [] ∨ (towardsWinner ≠ [] ∧ e = winner) ∨
        ((lost ≠ [] ∨ towardsLoser ≠ []) ∧ e = winner.opposite) := by
  have either := e.eq_or_opposite winner
  cases both <;> cases towardsWinner <;> cases lost <;> cases towardsLoser
  all_goals
    simp [overridesRow, either, Outcome.indeterminate, Outcome.notApplicable, Decision.ofEffect_leans,
      Decision.indeterminate_leans, Extent.ofEffect_covers, Extent.permitOrDeny_covers,
      Decision.notApplicable_leans]

theorem overridesRow_decides {winner e : Effect} {both towardsWinner towardsLoser : List Reason}
    {lost : List Outcome} :
    (overridesRow winner [] both towardsWinner lost towardsLoser).decision = .ofEffect e ↔
      both = [] ∧ towardsWinner = [] ∧ lost ≠ [] ∧ e = winner.opposite := by
  cases both <;> cases towardsWinner <;> cases lost <;> cases towardsLoser <;> cases e <;> cases winner
  all_goals
    simp [overridesRow, Outcome.indeterminate, Outcome.notApplicable, Decision.ofEffect, Effect.opposite]

section Overrides

variable {winner e : Effect} {os : List Outcome}

theorem overridesTable_won (won : ∃ o ∈ os, o.decision = .ofEffect winner) :
    (overridesTable winner os).decision = .ofEffect winner := by
  unfold overridesTable
  cases chosen : os.filter (Outcome.decides winner) with
  | nil => exact absurd chosen (decides_ne_nil.mpr won)
  | cons o rest => rfl

theorem overridesTable_leans_iff (unwon : ¬∃ o ∈ os, o.decision = .ofEffect winner) :
    (overridesTable winner os).decision.Leans e ↔ ∃ o ∈ os, o.decision.Leans e := by
  have none : os.filter (Outcome.decides winner) = [] := Classical.not_not.mp (mt decides_ne_nil.mp unwon)
  rw [overridesTable, none, overridesRow_leans, exists_leans_iff]
  rcases e.eq_or_opposite winner with rfl | rfl
  · simp [none, e.ne_opposite]
  · simp [winner.ne_opposite.symm, or_left_comm]

theorem overridesTable_lost_iff (unwon : ¬∃ o ∈ os, o.decision = .ofEffect winner) :
    (overridesTable winner os).decision = .ofEffect e ↔
      (¬∃ o ∈ os, o.decision.Leans winner) ∧ (∃ o ∈ os, o.decision = .ofEffect e) ∧
        e = winner.opposite := by
  have none : os.filter (Outcome.decides winner) = [] := Classical.not_not.mp (mt decides_ne_nil.mp unwon)
  rw [overridesTable, none, overridesRow_decides, exists_leans_iff, ← decides_ne_nil]
  constructor
  · rintro ⟨noBoth, noWinner, lost, rfl⟩
    exact ⟨by simp [none, noBoth, noWinner], lost, rfl⟩
  · rintro ⟨unleaning, lost, rfl⟩
    simp only [not_or, ne_eq, Classical.not_not] at unleaning
    exact ⟨unleaning.2.1, unleaning.2.2, lost, rfl⟩

theorem overridesTable_leans (leans : (overridesTable winner os).decision.Leans e) :
    ∃ o ∈ os, o.decision.Leans e := by
  by_cases won : ∃ o ∈ os, o.decision = .ofEffect winner
  · rw [overridesTable_won won, Decision.ofEffect_leans] at leans
    obtain ⟨o, member, decided⟩ := won
    exact ⟨o, member, by rw [decided, Decision.ofEffect_leans, leans]⟩
  · exact (overridesTable_leans_iff won).mp leans

end Overrides

theorem firstTable_leans {e : Effect} {os : List Outcome} (leans : (firstTable os).decision.Leans e) :
    ∃ o ∈ os, o.decision.Leans e := by
  unfold firstTable at leans
  split at leans
  · exact absurd leans Decision.notApplicable_leans
  · rename_i o rest chosen
    have member : o ∈ applicable os := chosen ▸ List.mem_cons_self
    exact ⟨o, (List.mem_filter.mp member).1, leans⟩

theorem applicable_leans {e : Effect} {os : List Outcome} :
    (∃ o ∈ applicable os, o.decision.Leans e) ↔ ∃ o ∈ os, o.decision.Leans e := by
  constructor
  · rintro ⟨o, member, leans⟩
    exact ⟨o, (List.mem_filter.mp member).1, leans⟩
  · rintro ⟨o, member, leans⟩
    have applies : o.decision.isApplicable = true := by
      rcases Decision.leans_iff.mp leans with decided | ⟨x, r, failed, _⟩
      · rw [decided, Decision.ofEffect_isApplicable]
      · rw [failed]
        rfl
    exact ⟨o, List.mem_filter.mpr ⟨member, applies⟩, leans⟩

theorem onlyOneTable_leans {id : String} {e : Effect} {os : List Outcome} :
    (onlyOneTable id os).decision.Leans e ↔ ∃ o ∈ os, o.decision.Leans e := by
  rw [← applicable_leans]
  unfold onlyOneTable
  split
  · rename_i none
    simp [none, Outcome.notApplicable, Decision.notApplicable_leans]
  · rename_i o chosen
    simp [chosen]
  · rename_i some _
    rw [Outcome.indeterminate, Decision.indeterminate_leans, Extent.covering_covers (extents_ne_nil some)]
    constructor
    · rintro ⟨x, member, covers⟩
      obtain ⟨o, member, extent⟩ := List.mem_filterMap.mp member
      exact ⟨o, member, x, extent, covers⟩
    · rintro ⟨o, member, x, extent, covers⟩
      exact ⟨x, List.mem_filterMap.mpr ⟨o, member, extent⟩, covers⟩

theorem otherwiseTable_leans {winner e : Effect} {os : List Outcome}
    (leans : (otherwiseTable winner os).decision.Leans e) :
    (∃ o ∈ os, o.decision.Leans e) ∨ e = winner.opposite := by
  unfold otherwiseTable at leans
  split at leans
  · rename_i o rest chosen
    obtain ⟨member, decision⟩ := mem_decides (chosen ▸ List.mem_cons_self : o ∈ os.filter _)
    exact .inl ⟨o, member, by rw [decision]; exact leans⟩
  · exact .inr (Decision.ofEffect_leans.mp leans)

theorem table_leans {a : Algorithm} {id : String} {e : Effect} {os : List Outcome}
    (leans : (a.table id os).decision.Leans e) :
    (∃ o ∈ os, o.decision.Leans e) ∨ a.default? = some e := by
  cases a with
  | denyOverrides => exact .inl (overridesTable_leans leans)
  | permitOverrides => exact .inl (overridesTable_leans leans)
  | firstApplicable => exact .inl (firstTable_leans leans)
  | onlyOneApplicable => exact .inl (onlyOneTable_leans.mp leans)
  | denyUnlessPermit => exact (otherwiseTable_leans leans).imp_right fun same => by rw [same]; rfl
  | permitUnlessDeny => exact (otherwiseTable_leans leans).imp_right fun same => by rw [same]; rfl

end Algorithm

end AccessControl
