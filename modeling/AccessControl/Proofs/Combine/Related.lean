import Mathlib.Data.List.Forall2
import AccessControl.Proofs.Combine.Table

namespace AccessControl

variable {R : Reason → Reason → Prop}

/-- The same decision, where a failure has related reasons. -/
inductive Decision.Related (R : Reason → Reason → Prop) : Decision → Decision → Prop where
  | permit : Related R .permit .permit
  | deny : Related R .deny .deny
  | notApplicable : Related R .notApplicable .notApplicable
  | indeterminate (x : Extent) {r r' : Reason} : R r r' → Related R (.indeterminate x r) (.indeterminate x r')

structure Outcome.Related (R : Reason → Reason → Prop) (o o' : Outcome) : Prop where
  decision : o.decision.Related R o'.decision
  obligations : o.obligations = o'.obligations

structure Response.Related (R : Reason → Reason → Prop) (r r' : Response) : Prop where
  decision : r.decision.Related R r'.decision
  obligations : r.obligations = r'.obligations

namespace Decision.Related

variable {d d' d'' : Decision}

theorem refl (reflexive : ∀ r, R r r) (d : Decision) : d.Related R d := by
  cases d with
  | permit => exact .permit
  | deny => exact .deny
  | notApplicable => exact .notApplicable
  | indeterminate x r => exact .indeterminate x (reflexive r)

theorem ofEffect (e : Effect) : (Decision.ofEffect e).Related R (.ofEffect e) := by
  cases e
  · exact .permit
  · exact .deny

theorem trans (transitive : ∀ {r r' r''}, R r r' → R r' r'' → R r r'') (first : d.Related R d')
    (second : d'.Related R d'') : d.Related R d'' := by
  cases first with
  | permit => exact second
  | deny => exact second
  | notApplicable => exact second
  | indeterminate x related =>
    cases second with
    | indeterminate _ related' => exact .indeterminate x (transitive related related')

theorem effect? (related : d.Related R d') : d.effect? = d'.effect? := by cases related <;> rfl

theorem isApplicable (related : d.Related R d') :
    d.isApplicable = d'.isApplicable := by cases related <;> rfl

theorem extent? (related : d.Related R d') : d.extent? = d'.extent? := by cases related <;> rfl

theorem settles (related : d.Related R d') (a : Algorithm) : a.settles d = a.settles d' := by
  cases a <;> simp only [Algorithm.settles, related.effect?, related.isApplicable]

end Decision.Related

namespace Outcome.Related

variable {o o' o'' : Outcome}

theorem refl (reflexive : ∀ r, R r r) (o : Outcome) : o.Related R o := ⟨.refl reflexive _, rfl⟩

theorem trans (transitive : ∀ {r r' r''}, R r r' → R r' r'' → R r r'') (first : o.Related R o')
    (second : o'.Related R o'') : o.Related R o'' :=
  ⟨first.decision.trans transitive second.decision, first.obligations.trans second.obligations⟩

theorem notApplicable : Outcome.notApplicable.Related R .notApplicable := ⟨.notApplicable, rfl⟩

theorem indeterminate (x : Extent) {r r' : Reason} (related : R r r') :
    (Outcome.indeterminate x r).Related R (.indeterminate x r') :=
  ⟨.indeterminate x related, rfl⟩

theorem effect (e : Effect) {bs bs' : List Obligation} (same : bs = bs') :
    Outcome.Related R ⟨.ofEffect e, bs⟩ ⟨.ofEffect e, bs'⟩ :=
  ⟨.ofEffect e, same⟩

theorem decides (related : o.Related R o') (e : Effect) : o.decides e = o'.decides e := by
  rw [Outcome.decides, Outcome.decides, related.decision.effect?]

theorem leaning? (related : o.Related R o') (x : Extent) : Option.Rel R (o.leaning? x) (o'.leaning? x) := by
  obtain ⟨d, bs⟩ := o
  obtain ⟨d', bs'⟩ := o'
  cases related.decision with
  | indeterminate y reasons =>
    by_cases same : x = y
    · simp [Outcome.leaning?, same, reasons]
    · simp [Outcome.leaning?, same]
  | _ => exact .none

theorem addObligations (related : o.Related R o') (h : SetHeader) :
    (h.addObligations o).Related R (h.addObligations o') := by
  refine ⟨by rw [h.addObligations_decision, h.addObligations_decision]; exact related.decision, ?_⟩
  simp only [SetHeader.addObligations, ← related.decision.effect?]
  cases o.decision.effect? with
  | none => exact related.obligations
  | some e => simp only [related.obligations]

end Outcome.Related

namespace Algorithm

variable {os os' : List Outcome}

theorem flatMap_related (each : List.Forall₂ (Outcome.Related R) os os') :
    os.flatMap Outcome.obligations = os'.flatMap Outcome.obligations := by
  induction each with
  | nil => rfl
  | cons head _ ih => rw [List.flatMap_cons, List.flatMap_cons, head.obligations, ih]

theorem decided_related (each : List.Forall₂ (Outcome.Related R) os os') (e : Effect) :
    List.Forall₂ (Outcome.Related R) (os.filter (Outcome.decides e)) (os'.filter (Outcome.decides e)) :=
  List.rel_filter (fun _ _ related => by simp only [related.decides e]) each

theorem leaning_related (each : List.Forall₂ (Outcome.Related R) os os') (x : Extent) :
    List.Forall₂ R (os.filterMap (Outcome.leaning? x)) (os'.filterMap (Outcome.leaning? x)) :=
  List.rel_filterMap (fun _ _ related => related.leaning? x) each

theorem applicable_related (each : List.Forall₂ (Outcome.Related R) os os') :
    List.Forall₂ (Outcome.Related R) (applicable os) (applicable os') :=
  List.rel_filter (fun _ _ related => by simp only [related.decision.isApplicable]) each

theorem extents_related (each : List.Forall₂ (Outcome.Related R) os os') :
    os.filterMap (fun o => o.decision.extent?) = os'.filterMap fun o => o.decision.extent? := by
  induction each with
  | nil => rfl
  | cons head _ ih => rw [List.filterMap_cons, List.filterMap_cons, head.decision.extent?, ih]

theorem overridesRow_related (winner : Effect) {won won' lost lost' : List Outcome}
    {both both' towardsWinner towardsWinner' towardsLoser towardsLoser' : List Reason}
    (wins : List.Forall₂ (Outcome.Related R) won won') (boths : List.Forall₂ R both both')
    (winners : List.Forall₂ R towardsWinner towardsWinner')
    (losses : List.Forall₂ (Outcome.Related R) lost lost')
    (losers : List.Forall₂ R towardsLoser towardsLoser') :
    (overridesRow winner won both towardsWinner lost towardsLoser).Related R
      (overridesRow winner won' both' towardsWinner' lost' towardsLoser') := by
  cases wins with
  | cons head _ => exact .effect winner head.obligations
  | nil =>
    cases boths with
    | cons head _ => exact .indeterminate _ head
    | nil =>
      cases winners with
      | cons head _ => cases losses <;> cases losers <;> exact .indeterminate _ head
      | nil =>
        cases losses with
        | cons head tail => exact .effect _ (flatMap_related (.cons head tail))
        | nil =>
          cases losers with
          | cons head _ => exact .indeterminate _ head
          | nil => exact .notApplicable

theorem overridesTable_related (winner : Effect) (each : List.Forall₂ (Outcome.Related R) os os') :
    (overridesTable winner os).Related R (overridesTable winner os') :=
  overridesRow_related winner (decided_related each _) (leaning_related each _) (leaning_related each _)
    (decided_related each _) (leaning_related each _)

theorem firstTable_related (each : List.Forall₂ (Outcome.Related R) os os') :
    (firstTable os).Related R (firstTable os') := by
  have chosen := applicable_related each
  unfold firstTable
  generalize applicable os = as, applicable os' = as' at chosen ⊢
  cases chosen with
  | nil => exact .notApplicable
  | cons head _ => exact head

theorem onlyOneTable_related (reflexive : ∀ r, R r r) (id : String)
    (each : List.Forall₂ (Outcome.Related R) os os') :
    (onlyOneTable id os).Related R (onlyOneTable id os') := by
  have chosen := applicable_related each
  unfold onlyOneTable
  generalize applicable os = as, applicable os' = as' at chosen ⊢
  cases chosen with
  | nil => exact .notApplicable
  | cons head tail =>
    have extents := extents_related (.cons head tail)
    cases tail with
    | nil => exact head
    | cons second rest =>
      simp only [extents]
      exact .indeterminate _ (reflexive _)

theorem otherwiseTable_related (winner : Effect) (each : List.Forall₂ (Outcome.Related R) os os') :
    (otherwiseTable winner os).Related R (otherwiseTable winner os') := by
  have wins := decided_related each winner
  have losses := flatMap_related (decided_related each winner.opposite)
  unfold otherwiseTable
  generalize os.filter (Outcome.decides winner) = won, os'.filter (Outcome.decides winner) = won' at wins ⊢
  cases wins with
  | cons head _ => exact .effect winner head.obligations
  | nil => exact .effect _ losses

theorem table_related (reflexive : ∀ r, R r r) (a : Algorithm) (id : String)
    (each : List.Forall₂ (Outcome.Related R) os os') : (a.table id os).Related R (a.table id os') := by
  cases a with
  | denyOverrides => exact overridesTable_related .deny each
  | permitOverrides => exact overridesTable_related .permit each
  | firstApplicable => exact firstTable_related each
  | onlyOneApplicable => exact onlyOneTable_related reflexive id each
  | denyUnlessPermit => exact otherwiseTable_related .permit each
  | permitUnlessDeny => exact otherwiseTable_related .deny each

end Algorithm

end AccessControl
