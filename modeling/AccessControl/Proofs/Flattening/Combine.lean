import AccessControl.Proofs.Combine.Related
import AccessControl.Proofs.Obligations.Combine
import AccessControl.Proofs.Order.Combine

namespace AccessControl

/-- The same decision up to the reason of a failure, with the same obligations. -/
abbrev Outcome.Equivalent : Outcome → Outcome → Prop := Outcome.Related fun _ _ => True

theorem Decision.Alike.related {d d' : Decision} (alike : d.Alike d') : d.Related (fun _ _ => True) d' := by
  cases alike with
  | same => exact .refl (fun _ => trivial) d
  | failed x r r' => exact .indeterminate x trivial

theorem Outcome.Equivalent.of_eq {o o' : Outcome} (same : o = o') : o.Equivalent o' :=
  same ▸ .refl (fun _ => trivial) o

theorem Outcome.Gathers.equivalent {o o' : Outcome} {gathered gathered' : Effect → List Obligation}
    (gathers : o.Gathers gathered) (gathers' : o'.Gathers gathered') (alike : o.Alike o')
    (same : ∀ e, o.decision = .ofEffect e → gathered e = gathered' e) : o.Equivalent o' := by
  refine ⟨alike.related, ?_⟩
  have effects := alike.related.effect?
  cases decided : o.decision.effect? with
  | none =>
    rw [decided] at effects
    rw [gathers.undecided decided, gathers'.undecided effects.symm]
  | some e =>
    rw [decided] at effects
    have first := Decision.eq_ofEffect decided
    rw [gathers.decided e first, gathers'.decided e (Decision.eq_ofEffect effects.symm), same e first]

namespace Algorithm

variable {winner : Effect} {o : Outcome} {xs ys zs : List Outcome}

theorem exists_nested (P : Decision → Prop) (xs zs : List Outcome)
    (stands : P o.decision ↔ ∃ y ∈ ys, P y.decision) :
    (∃ x ∈ xs ++ o :: zs, P x.decision) ↔ ∃ x ∈ xs ++ (ys ++ zs), P x.decision := by
  simp only [List.mem_append, List.mem_cons, or_and_right, exists_or, exists_eq_left, stands]

theorem collected_winner_nested (gathers : o.Gathers (collected winner ys))
    (wins : o.decision = .ofEffect winner ↔ ∃ y ∈ ys, y.decision = .ofEffect winner) :
    collected winner (xs ++ o :: zs) winner = collected winner (xs ++ (ys ++ zs)) winner := by
  simp only [collected, if_pos, List.find?_append, List.find?_cons]
  cases xs.find? (Outcome.decides winner) with
  | some x => rfl
  | none =>
    cases decides : o.decides winner with
    | true =>
      have own := gathers.decided winner (Outcome.decides_iff.mp decides)
      obtain ⟨y, member, won⟩ := wins.mp (Outcome.decides_iff.mp decides)
      obtain ⟨first, found⟩ := Option.isSome_iff_exists.mp
        (List.find?_isSome.mpr ⟨y, member, Outcome.decides_iff.mpr won⟩)
      simp only [collected, if_pos, found] at own
      simp [found, own]
    | false =>
      have none : ys.find? (Outcome.decides winner) = none := by
        rw [List.find?_eq_none]
        intro y member won
        have won := wins.mpr ⟨y, member, Outcome.decides_iff.mp won⟩
        rw [← Outcome.decides_iff, decides] at won
        cases won
      simp [none]

theorem obligationsFor_nested {e : Effect}
    (stands : Outcome.obligationsFor e [o] = Outcome.obligationsFor e ys) :
    Outcome.obligationsFor e (xs ++ o :: zs) = Outcome.obligationsFor e (xs ++ (ys ++ zs)) := by
  have split (xs ys : List Outcome) :
      Outcome.obligationsFor e (xs ++ ys) = Outcome.obligationsFor e xs ++ Outcome.obligationsFor e ys := by
    simp only [Outcome.obligationsFor, List.filter_append, List.flatMap_append]
  rw [← List.singleton_append, split, split, split, split, stands]

theorem obligationsFor_loser (gathers : o.Gathers (collected winner ys))
    (loses : (∃ y ∈ ys, y.decision = .ofEffect winner.opposite) → o.decision = .ofEffect winner.opposite) :
    Outcome.obligationsFor winner.opposite [o] = Outcome.obligationsFor winner.opposite ys := by
  by_cases lost : o.decision = .ofEffect winner.opposite
  · have own := gathers.decided _ lost
    rw [collected_loser] at own
    rw [← own, Outcome.obligationsFor, List.filter_cons_of_pos (Outcome.decides_iff.mpr lost)]
    simp
  · have none := mt decides_ne_nil.mp (mt loses lost)
    rw [ne_eq, Classical.not_not] at none
    rw [Outcome.obligationsFor, Outcome.obligationsFor, none,
      List.filter_cons_of_neg (mt Outcome.decides_iff.mp lost)]
    rfl

theorem overridesTable_decides_winner (winner : Effect) (ys : List Outcome) :
    (overridesTable winner ys).decision = .ofEffect winner ↔ ∃ y ∈ ys, y.decision = .ofEffect winner := by
  refine ⟨fun decided => ?_, overridesTable_won⟩
  by_contra unwon
  exact winner.ne_opposite ((overridesTable_lost_iff unwon).mp decided).2.2

theorem overridesTable_decides_loser (unleaning : ¬∃ y ∈ ys, y.decision.Leans winner) :
    (overridesTable winner ys).decision = .ofEffect winner.opposite ↔
      ∃ y ∈ ys, y.decision = .ofEffect winner.opposite := by
  have unwon : ¬∃ y ∈ ys, y.decision = .ofEffect winner := by
    rintro ⟨y, member, won⟩
    exact unleaning ⟨y, member, Decision.leans_iff.mpr (.inl won)⟩
  rw [overridesTable_lost_iff unwon]
  exact ⟨fun lost => lost.2.1, fun lost => ⟨unleaning, lost, rfl⟩⟩

theorem overridesTable_nested (winner : Effect) (xs ys zs : List Outcome) :
    (overridesTable winner (xs ++ overridesTable winner ys :: zs)).Equivalent
      (overridesTable winner (xs ++ (ys ++ zs))) := by
  have inner := overridesTable_collects winner ys
  have wins := exists_nested (· = .ofEffect winner) xs zs (overridesTable_decides_winner winner ys)
  by_cases won : ∃ x ∈ xs ++ (ys ++ zs), x.decision = .ofEffect winner
  · refine (overridesTable_collects winner _).equivalent (overridesTable_collects winner _) ?_ ?_
    · rw [Outcome.Alike, overridesTable_won won, overridesTable_won (wins.mpr won)]
      exact .same _
    · intro e decided
      rw [overridesTable_won (wins.mpr won)] at decided
      rw [← Decision.ofEffect_inj.mp decided]
      exact collected_winner_nested inner (overridesTable_decides_winner winner ys)
  · have unwon : ¬∃ y ∈ ys, y.decision = .ofEffect winner := by
      rintro ⟨y, member, wins⟩
      exact won ⟨y, by simp [member], wins⟩
    have leans (e : Effect) := exists_nested (·.Leans e) xs zs (overridesTable_leans_iff unwon)
    -- a failure for the winner keeps the loser from deciding, on either level
    have loses (unleaning : ¬∃ x ∈ xs ++ (ys ++ zs), x.decision.Leans winner) :
        (overridesTable winner ys).decision = .ofEffect winner.opposite ↔
          ∃ y ∈ ys, y.decision = .ofEffect winner.opposite := by
      apply overridesTable_decides_loser
      rintro ⟨y, member, leans⟩
      exact unleaning ⟨y, by simp [member], leans⟩
    refine (overridesTable_collects winner _).equivalent (overridesTable_collects winner _) ?_ ?_
    · refine Decision.alike_iff.mpr ⟨fun e => ?_, fun e => ?_⟩
      · rw [overridesTable_lost_iff won, overridesTable_lost_iff (mt wins.mp won), leans winner]
        refine and_congr_right fun unleaning => and_congr_left ?_
        rintro rfl
        exact exists_nested (· = .ofEffect winner.opposite) xs zs (loses unleaning)
      · rw [overridesTable_leans_iff won, overridesTable_leans_iff (mt wins.mp won), leans e]
    · intro e decided
      obtain ⟨unleaning, _, rfl⟩ := (overridesTable_lost_iff (mt wins.mp won)).mp decided
      rw [collected_loser, collected_loser]
      exact obligationsFor_nested (obligationsFor_loser inner (loses (mt (leans winner).mpr unleaning)).mpr)

theorem otherwiseTable_decides_winner (winner : Effect) (ys : List Outcome) :
    (otherwiseTable winner ys).decision = .ofEffect winner ↔ ∃ y ∈ ys, y.decision = .ofEffect winner := by
  rw [otherwiseTable_decision, ← decides_ne_nil]
  split
  · exact ⟨fun _ => ‹_›, fun _ => rfl⟩
  · exact ⟨fun same => absurd (Decision.ofEffect_inj.mp same).symm winner.ne_opposite,
      fun won => absurd won ‹_›⟩

theorem otherwiseTable_nested (winner : Effect) (xs ys zs : List Outcome) :
    (otherwiseTable winner (xs ++ otherwiseTable winner ys :: zs)).Equivalent
      (otherwiseTable winner (xs ++ (ys ++ zs))) := by
  have inner := otherwiseTable_collects winner ys
  have wins := exists_nested (· = .ofEffect winner) xs zs (otherwiseTable_decides_winner winner ys)
  refine (otherwiseTable_collects winner _).equivalent (otherwiseTable_collects winner _) ?_ ?_
  · rw [Outcome.Alike, otherwiseTable_decision, otherwiseTable_decision]
    simp only [decides_ne_nil, wins]
    exact .same _
  · intro e decided
    rcases e.eq_or_opposite winner with rfl | rfl
    · exact collected_winner_nested inner (otherwiseTable_decides_winner e ys)
    · have unwon : ¬∃ y ∈ ys, y.decision = .ofEffect winner := by
        rintro ⟨y, member, won⟩
        have won := (otherwiseTable_decides_winner _ _).mpr (wins.mpr ⟨y, by simp [member], won⟩)
        exact winner.ne_opposite (Decision.ofEffect_inj.mp (won.symm.trans decided))
      have loses : (otherwiseTable winner ys).decision = .ofEffect winner.opposite := by
        rw [otherwiseTable_decision, if_neg (mt decides_ne_nil.mp unwon)]
      rw [collected_loser, collected_loser]
      exact obligationsFor_nested (obligationsFor_loser inner fun _ => loses)

theorem firstTable_nested (xs ys zs : List Outcome) :
    firstTable (xs ++ firstTable ys :: zs) = firstTable (xs ++ (ys ++ zs)) := by
  induction xs with
  | nil =>
    induction ys with
    | nil => rfl
    | cons y ys ih =>
      rw [List.nil_append, List.nil_append] at ih ⊢
      cases applies : y.decision.isApplicable with
      | true => simp [firstTable_cons, applies]
      | false => simpa [firstTable_cons, applies] using ih
  | cons x xs ih => rw [List.cons_append, List.cons_append, firstTable_cons, firstTable_cons, ih]

theorem onlyOneTable_crowded {os : List Outcome} {a b : Outcome} {rest : List Outcome}
    (crowded : applicable os = a :: b :: rest) (id : String) :
    ∃ x, onlyOneTable id os = .indeterminate x (.multipleApplicable id) := by
  rw [onlyOneTable, crowded]
  exact ⟨_, rfl⟩

theorem onlyOneTable_fails {os : List Outcome} {x : Extent} {r : Reason}
    (failed : .indeterminate x r ∈ os) (id : String) : ∃ y r', onlyOneTable id os = .indeterminate y r' := by
  have member : .indeterminate x r ∈ applicable os := List.mem_filter.mpr ⟨failed, rfl⟩
  rcases chosen : applicable os with _ | ⟨a, _ | ⟨b, rest⟩⟩
  · rw [chosen] at member
    cases member
  · rw [chosen, List.mem_singleton] at member
    rw [onlyOneTable, chosen]
    exact ⟨x, r, member.symm⟩
  · obtain ⟨y, ambiguous⟩ := onlyOneTable_crowded chosen id
    exact ⟨y, _, ambiguous⟩

theorem onlyOneTable_eq_of_applicable {os os' : List Outcome} (same : applicable os = applicable os')
    (id : String) : onlyOneTable id os = onlyOneTable id os' := by
  rw [onlyOneTable, onlyOneTable, same]

theorem applicable_nested (part : applicable [o] = applicable ys) :
    applicable (xs ++ o :: zs) = applicable (xs ++ (ys ++ zs)) := by
  rw [← List.singleton_append, applicable_append, applicable_append, applicable_append,
    applicable_append, part]

theorem onlyOneTable_nested (id inner : String) (xs ys zs : List Outcome) :
    (onlyOneTable id (xs ++ onlyOneTable inner ys :: zs)).Equivalent
      (onlyOneTable id (xs ++ (ys ++ zs))) := by
  rcases chosen : applicable ys with _ | ⟨a, _ | ⟨b, rest⟩⟩
  · have silent : onlyOneTable inner ys = .notApplicable := by rw [onlyOneTable, chosen]
    refine .of_eq (onlyOneTable_eq_of_applicable (applicable_nested ?_) id)
    rw [silent, chosen]
    rfl
  · have single : onlyOneTable inner ys = a := by rw [onlyOneTable, chosen]
    have member : a ∈ applicable ys := chosen ▸ List.mem_cons_self
    refine .of_eq (onlyOneTable_eq_of_applicable (applicable_nested ?_) id)
    rw [single, chosen, applicable_cons, if_pos (List.mem_filter.mp member).2]
    rfl
  · -- the ambiguity of the inner set is one failure for the outer one, and its children are two
    obtain ⟨z, ambiguous⟩ := onlyOneTable_crowded chosen inner
    obtain ⟨x, r, nested⟩ := onlyOneTable_fails (ambiguous ▸ by simp :
      .indeterminate z (.multipleApplicable inner) ∈ xs ++ onlyOneTable inner ys :: zs) id
    obtain ⟨y, r', flat⟩ : ∃ y r', onlyOneTable id (xs ++ (ys ++ zs)) = .indeterminate y r' := by
      rcases found : applicable (xs ++ (ys ++ zs)) with _ | ⟨a', _ | ⟨b', rest'⟩⟩
      · simp [applicable_append, chosen] at found
      · have lengths := congrArg List.length found
        simp only [applicable_append, chosen, List.length_append, List.length_cons, List.length_nil]
          at lengths
        omega
      · obtain ⟨y, ambiguous⟩ := onlyOneTable_crowded found id
        exact ⟨y, _, ambiguous⟩
    have extents : some x = some y := by
      apply Extent.eq_of_covers
      intro e
      have leans := exists_nested (·.Leans e) xs zs (@onlyOneTable_leans inner e ys)
      rw [← @onlyOneTable_leans id, ← @onlyOneTable_leans id, nested, flat] at leans
      exact leans
    rw [nested, flat, Option.some.inj extents]
    exact .indeterminate y trivial

theorem combine_nested (a : Algorithm) (id inner : String) (xs ys zs : List Outcome) :
    (a.combine id (xs ++ a.combine inner ys :: zs)).Equivalent (a.combine id (xs ++ (ys ++ zs))) := by
  simp only [combine_eq_table]
  cases a with
  | denyOverrides => exact overridesTable_nested .deny xs ys zs
  | permitOverrides => exact overridesTable_nested .permit xs ys zs
  | firstApplicable => exact .of_eq (firstTable_nested xs ys zs)
  | onlyOneApplicable => exact onlyOneTable_nested id inner xs ys zs
  | denyUnlessPermit => exact otherwiseTable_nested .permit xs ys zs
  | permitUnlessDeny => exact otherwiseTable_nested .deny xs ys zs

end Algorithm

end AccessControl
