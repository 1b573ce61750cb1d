import AccessControl.Policy.Evaluate

namespace AccessControl

def Extent.covering (xs : List Extent) : Extent :=
  if xs.all (· = .permit) then .permit else if xs.all (· = .deny) then .deny else .permitOrDeny

namespace Algorithm

/-- A row of overrides is chosen by the outcomes for the winner, the failures of both effects, those
of the winner, the outcomes for the loser and the failures of the loser. -/
def overridesRow (winner : Effect) :
    List Outcome → List Reason → List Reason → List Outcome → List Reason → Outcome
  | o :: _, _, _, _, _ => ⟨.ofEffect winner, o.obligations⟩
  | [], r :: _, _, _, _ => .indeterminate .permitOrDeny r
  | [], [], r :: _, [], [] => .indeterminate (.ofEffect winner) r
  | [], [], r :: _, _, _ => .indeterminate .permitOrDeny r
  | [], [], [], o :: os, _ => ⟨.ofEffect winner.opposite, (o :: os).flatMap Outcome.obligations⟩
  | [], [], [], [], r :: _ => .indeterminate (.ofEffect winner.opposite) r
  | [], [], [], [], [] => .notApplicable

def overridesTable (winner : Effect) (os : List Outcome) : Outcome :=
  overridesRow winner (os.filter (Outcome.decides winner))
    (os.filterMap (Outcome.leaning? .permitOrDeny)) (os.filterMap (Outcome.leaning? (.ofEffect winner)))
    (os.filter (Outcome.decides winner.opposite))
    (os.filterMap (Outcome.leaning? (.ofEffect winner.opposite)))

def applicable (os : List Outcome) : List Outcome := os.filter fun o => o.decision.isApplicable

def firstTable (os : List Outcome) : Outcome :=
  match applicable os with
  | [] => .notApplicable
  | o :: _ => o

def onlyOneTable (id : String) (os : List Outcome) : Outcome :=
  match applicable os with
  | [] => .notApplicable
  | [o] => o
  | os => .indeterminate (.covering (os.filterMap fun o => o.decision.extent?)) (.multipleApplicable id)

def otherwiseTable (winner : Effect) (os : List Outcome) : Outcome :=
  match os.filter (Outcome.decides winner) with
  | o :: _ => ⟨.ofEffect winner, o.obligations⟩
  | [] =>
    ⟨.ofEffect winner.opposite, (os.filter (Outcome.decides winner.opposite)).flatMap Outcome.obligations⟩

/-- The outcome of a set with this id, from the outcomes of all its children. -/
def table : Algorithm → String → List Outcome → Outcome
  | denyOverrides, _, os => overridesTable .deny os
  | permitOverrides, _, os => overridesTable .permit os
  | firstApplicable, _, os => firstTable os
  | onlyOneApplicable, id, os => onlyOneTable id os
  | denyUnlessPermit, _, os => otherwiseTable .permit os
  | permitUnlessDeny, _, os => otherwiseTable .deny os

end Algorithm

@[simp] theorem Decision.ofEffect_effect? (e : Effect) : (ofEffect e).effect? = some e := by cases e <;> rfl

@[simp] theorem Decision.ofEffect_isApplicable (e : Effect) : (ofEffect e).isApplicable = true := by
  cases e <;> rfl

@[simp] theorem Decision.ofEffect_extent? (e : Effect) : (ofEffect e).extent? = some (.ofEffect e) := by
  cases e <;> rfl

theorem Decision.ofEffect_inj {e f : Effect} : ofEffect e = ofEffect f ↔ e = f := by
  cases e <;> cases f <;> simp [ofEffect]

theorem Decision.kinds (d : Decision) :
    d = .notApplicable ∨ (∃ e, d = .ofEffect e) ∨ ∃ x r, d = .indeterminate x r := by
  cases d with
  | permit => exact .inr (.inl ⟨.permit, rfl⟩)
  | deny => exact .inr (.inl ⟨.deny, rfl⟩)
  | notApplicable => exact .inl rfl
  | indeterminate x r => exact .inr (.inr ⟨x, r, rfl⟩)

theorem Decision.silent_or_applies (d : Decision) : d = .notApplicable ∨ d.isApplicable = true := by
  cases d <;> simp [isApplicable]

theorem Decision.eq_ofEffect {d : Decision} {e : Effect} (decided : d.effect? = some e) :
    d = .ofEffect e := by
  cases d <;> cases decided <;> rfl

theorem Outcome.eq_of_decides {e : Effect} {o : Outcome} (decides : o.decides e = true) :
    o = ⟨.ofEffect e, o.obligations⟩ := by
  rw [← Decision.eq_ofEffect (beq_iff_eq.mp decides)]

theorem Outcome.decides_iff {e : Effect} {o : Outcome} : o.decides e = true ↔ o.decision = .ofEffect e := by
  refine ⟨fun decides => congrArg Outcome.decision (eq_of_decides decides), fun decided => ?_⟩
  rw [decides, decided, Decision.ofEffect_effect?, beq_self_eq_true]

theorem SetHeader.addObligations_decision (h : SetHeader) (o : Outcome) :
    (h.addObligations o).decision = o.decision := by
  unfold addObligations
  split <;> rfl

theorem Extent.foldl_union_covering (x : Extent) (xs : List Extent) :
    xs.foldl union x = covering (x :: xs) := by
  induction xs generalizing x with
  | nil => cases x <;> rfl
  | cons y ys ih =>
    rw [List.foldl_cons, ih]
    cases x <;> cases y <;> simp [union, covering]

theorem Extent.unionAll_eq_covering {xs : List Extent} (some_ : xs ≠ []) :
    unionAll xs = some (covering xs) := by
  cases xs with
  | nil => exact absurd rfl some_
  | cons x xs => rw [unionAll, foldl_union_covering]

namespace Algorithm

theorem any_eq_filter (p : Outcome → Bool) (os : List Outcome) :
    os.any p = !(os.filter p).isEmpty := by
  induction os with
  | nil => rfl
  | cons o os ih => cases holds : p o <;> simp [holds, ih]

theorem overrides_eq_table (winner : Effect) (os : List Outcome) :
    overrides winner os = overridesTable winner os := by
  unfold overrides overridesTable Outcome.obligationsFor
  simp only [← List.head?_filter, ← List.head?_filterMap, any_eq_filter]
  cases won : os.filter (Outcome.decides winner) with
  | cons o rest =>
    have decides : o.decides winner = true :=
      (List.mem_filter.mp (won ▸ List.mem_cons_self : o ∈ os.filter (Outcome.decides winner))).2
    exact Outcome.eq_of_decides decides
  | nil =>
    cases os.filterMap (Outcome.leaning? .permitOrDeny) with
    | cons r rest => rfl
    | nil =>
      cases os.filterMap (Outcome.leaning? (.ofEffect winner)) <;>
        cases os.filter (Outcome.decides winner.opposite) <;>
        cases os.filterMap (Outcome.leaning? (.ofEffect winner.opposite)) <;> rfl

theorem first_eq_table (os : List Outcome) : first os = firstTable os := by
  unfold first firstTable applicable
  rw [← List.head?_filter]
  cases os.filter fun o => o.decision.isApplicable <;> rfl

theorem extents_ne_nil {os : List Outcome} (some : applicable os ≠ []) :
    (applicable os).filterMap (fun o => o.decision.extent?) ≠ [] := by
  obtain ⟨o, member⟩ := List.exists_mem_of_ne_nil _ some
  have applies := (List.mem_filter.mp member).2
  have shown : o.decision.extent? ≠ none := by
    intro hidden
    cases d : o.decision <;> simp_all [Decision.isApplicable, Decision.extent?]
  obtain ⟨x, shown⟩ := Option.ne_none_iff_exists'.mp shown
  exact List.ne_nil_of_mem (List.mem_filterMap.mpr ⟨o, member, shown⟩)

theorem onlyOne_eq_table (id : String) (os : List Outcome) : onlyOne id os = onlyOneTable id os := by
  unfold onlyOne onlyOneTable applicable
  rcases found : os.filter fun o => o.decision.isApplicable with _ | ⟨o, _ | ⟨o', rest⟩⟩
  all_goals simp only [found]
  · have nonempty := @extents_ne_nil os (by rw [applicable, found]; exact List.cons_ne_nil _ _)
    rw [applicable, found] at nonempty
    simp only [Extent.unionAll_eq_covering nonempty]

theorem otherwise_eq_table (winner : Effect) (os : List Outcome) :
    otherwise winner os = otherwiseTable winner os := by
  unfold otherwise otherwiseTable Outcome.obligationsFor
  rw [← List.head?_filter]
  cases os.filter (Outcome.decides winner) <;> rfl

theorem reduce_eq_table (a : Algorithm) (id : String) (os : List Outcome) :
    a.reduce id os = a.table id os := by
  cases a with
  | denyOverrides => exact overrides_eq_table .deny os
  | permitOverrides => exact overrides_eq_table .permit os
  | firstApplicable => exact first_eq_table os
  | onlyOneApplicable => exact onlyOne_eq_table id os
  | denyUnlessPermit => exact otherwise_eq_table .permit os
  | permitUnlessDeny => exact otherwise_eq_table .deny os

theorem pulled_cases (a : Algorithm) (os : List Outcome) :
    (∀ o ∈ os, a.settles o.decision = false) ∧ a.pulled os = os ∨
    ∃ before o after, os = before ++ o :: after ∧ (∀ o ∈ before, a.settles o.decision = false) ∧
      a.settles o.decision = true ∧ a.pulled os = before ++ [o] := by
  induction os with
  | nil => exact .inl ⟨by simp, rfl⟩
  | cons o os ih =>
    cases settles : a.settles o.decision with
    | true => exact .inr ⟨[], o, os, rfl, by simp, settles, by simp [pulled, settles]⟩
    | false =>
      rcases ih with ⟨none, all⟩ | ⟨before, last, after, split, unsettled, settled, upTo⟩
      · exact .inl ⟨List.forall_mem_cons.mpr ⟨settles, none⟩, by simp [pulled, settles, all]⟩
      · refine .inr ⟨o :: before, last, after, by rw [split]; rfl, ?_, settled, ?_⟩
        · exact List.forall_mem_cons.mpr ⟨settles, unsettled⟩
        · simp [pulled, settles, upTo]

theorem filter_first {p : Outcome → Bool} {before : List Outcome} {o : Outcome}
    (none : ∀ o ∈ before, p o = false) (holds : p o = true) (after : List Outcome) :
    (before ++ o :: after).filter p = o :: after.filter p := by
  have skipped : before.filter p = [] := by simpa [List.filter_eq_nil_iff] using none
  rw [List.filter_append, skipped, List.filter_cons_of_pos holds, List.nil_append]

theorem table_settled {a : Algorithm} {before : List Outcome} {o : Outcome}
    (unsettled : ∀ o ∈ before, a.settles o.decision = false) (settles : a.settles o.decision = true)
    (id : String) (after : List Outcome) :
    a.table id (before ++ o :: after) = a.table id (before ++ [o]) := by
  cases a with
  | onlyOneApplicable => cases settles
  | firstApplicable =>
    have chosen (after : List Outcome) : applicable (before ++ o :: after) = o :: applicable after :=
      filter_first unsettled settles after
    simp only [table, firstTable, chosen]
  | denyOverrides =>
    have won (after : List Outcome) := filter_first (p := Outcome.decides .deny) unsettled settles after
    simp only [table, overridesTable, won, overridesRow]
  | permitOverrides =>
    have won (after : List Outcome) := filter_first (p := Outcome.decides .permit) unsettled settles after
    simp only [table, overridesTable, won, overridesRow]
  | denyUnlessPermit =>
    have won (after : List Outcome) := filter_first (p := Outcome.decides .permit) unsettled settles after
    simp only [table, otherwiseTable, won]
  | permitUnlessDeny =>
    have won (after : List Outcome) := filter_first (p := Outcome.decides .deny) unsettled settles after
    simp only [table, otherwiseTable, won]

theorem combine_eq_table (a : Algorithm) (id : String) (os : List Outcome) :
    a.combine id os = a.table id os := by
  rw [combine, reduce_eq_table]
  rcases a.pulled_cases os with ⟨_, all⟩ | ⟨before, o, after, split, unsettled, settles, upTo⟩
  · rw [all]
  · rw [upTo, split, table_settled unsettled settles id after]

theorem applicable_cons (o : Outcome) (os : List Outcome) :
    applicable (o :: os) = if o.decision.isApplicable then o :: applicable os else applicable os := by
  rw [applicable, List.filter_cons]
  rfl

theorem applicable_append (xs ys : List Outcome) : applicable (xs ++ ys) = applicable xs ++ applicable ys :=
  List.filter_append xs ys

theorem filter_applicable {p : Outcome → Bool} (sees : ∀ o, p o = true → o.decision.isApplicable = true)
    (os : List Outcome) : (applicable os).filter p = os.filter p := by
  rw [applicable, List.filter_filter]
  refine List.filter_congr fun o _ => ?_
  cases seen : p o with
  | true => rw [sees o seen, Bool.and_self]
  | false => rfl

theorem decides_applicable (e : Effect) (os : List Outcome) :
    (applicable os).filter (Outcome.decides e) = os.filter (Outcome.decides e) := by
  refine filter_applicable (fun o decides => ?_) os
  rw [Outcome.decides_iff.mp decides, Decision.ofEffect_isApplicable]

theorem leaning_applicable (x : Extent) (os : List Outcome) :
    (applicable os).filterMap (Outcome.leaning? x) = os.filterMap (Outcome.leaning? x) := by
  rw [applicable, List.filterMap_filter]
  congr 1
  funext o
  obtain ⟨d, _⟩ := o
  cases d <;> rfl

/-- No algorithm sees the outcomes that are not applicable. -/
theorem table_applicable (a : Algorithm) (id : String) (os : List Outcome) :
    a.table id (applicable os) = a.table id os := by
  have again : applicable (applicable os) = applicable os := filter_applicable (fun _ applies => applies) os
  cases a <;>
    simp only [table, overridesTable, firstTable, onlyOneTable, otherwiseTable, decides_applicable,
      leaning_applicable, again]

end Algorithm

end AccessControl
