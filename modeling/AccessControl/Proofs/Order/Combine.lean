import AccessControl.Proofs.Extent.FirstApplicable
import AccessControl.Proofs.Stability.Combine

namespace AccessControl

/-- The same decision up to the reason of a failure. -/
inductive Decision.Alike : Decision → Decision → Prop where
  | same (d : Decision) : Alike d d
  | failed (x : Extent) (r r' : Reason) : Alike (.indeterminate x r) (.indeterminate x r')

theorem Extent.eq_of_covers {x y : Option Extent}
    (same : ∀ e, (∃ z, x = some z ∧ z.Covers e) ↔ ∃ z, y = some z ∧ z.Covers e) : x = y := by
  have permit := same .permit
  have deny := same .deny
  rcases x with _ | _ | _ | _ <;> rcases y with _ | _ | _ | _ <;> simp [Covers, ofEffect] at permit deny ⊢

namespace Decision

theorem Alike.symm {d d' : Decision} (alike : d.Alike d') : d'.Alike d := by
  cases alike with
  | same => exact .same d
  | failed x r r' => exact .failed x r' r

theorem Alike.trans {d d' d'' : Decision} (first : d.Alike d') (second : d'.Alike d'') : d.Alike d'' := by
  cases first with
  | same => exact second
  | failed x r r' =>
    cases second with
    | same => exact .failed x r r'
    | failed _ _ r'' => exact .failed x r r''

theorem Alike.isApplicable {d d' : Decision} (alike : d.Alike d') : d.isApplicable = d'.isApplicable := by
  cases alike <;> rfl

theorem alike_iff {d d' : Decision} :
    d.Alike d' ↔ (∀ e, d = .ofEffect e ↔ d' = .ofEffect e) ∧ ∀ e, d.Leans e ↔ d'.Leans e := by
  constructor
  · intro alike
    cases alike with
    | same => exact ⟨fun _ => .rfl, fun _ => .rfl⟩
    | failed x r r' =>
      refine ⟨fun e => ?_, fun e => by rw [indeterminate_leans, indeterminate_leans]⟩
      cases e <;> simp [ofEffect]
  · rintro ⟨decided, leans⟩
    have extents : d.extent? = d'.extent? := Extent.eq_of_covers leans
    rcases d.kinds with rfl | ⟨e, rfl⟩ | ⟨x, r, rfl⟩
    · rw [eq_notApplicable fun e => mt (leans e).mpr notApplicable_leans]
      exact .same _
    · rw [(decided e).mp rfl]
      exact .same _
    · rcases d'.kinds with rfl | ⟨e, rfl⟩ | ⟨y, r', rfl⟩
      · cases extents
      · cases e <;> cases (decided _).mpr rfl
      · cases extents
        exact .failed x r r'

end Decision

def Outcome.Alike (o o' : Outcome) : Prop := o.decision.Alike o'.decision

namespace Algorithm

variable {os os' : List Outcome}

/-- The same effects occur among the outcomes, decided and as what failures could have been. -/
structure SameEffects (os os' : List Outcome) : Prop where
  decided : ∀ e, (∃ o ∈ os, o.decision = .ofEffect e) ↔ ∃ o ∈ os', o.decision = .ofEffect e
  leans : ∀ e, (∃ o ∈ os, o.decision.Leans e) ↔ ∃ o ∈ os', o.decision.Leans e

theorem SameEffects.of_perm (perm : os.Perm os') : SameEffects os os' where
  decided _ := exists_congr fun _ => and_congr_left fun _ => perm.mem_iff
  leans _ := exists_congr fun _ => and_congr_left fun _ => perm.mem_iff

theorem SameEffects.of_alike (each : List.Forall₂ Outcome.Alike os os') : SameEffects os os' := by
  induction each with
  | nil => exact ⟨fun _ => .rfl, fun _ => .rfl⟩
  | cons head _ ih =>
    obtain ⟨decided, leans⟩ := Decision.alike_iff.mp head
    constructor
    · intro e
      rw [List.exists_mem_cons_iff, List.exists_mem_cons_iff, decided, ih.decided]
    · intro e
      rw [List.exists_mem_cons_iff, List.exists_mem_cons_iff, leans, ih.leans]

theorem overridesTable_alike (winner : Effect) (same : SameEffects os os') :
    (overridesTable winner os).Alike (overridesTable winner os') := by
  by_cases won : ∃ o ∈ os, o.decision = .ofEffect winner
  · rw [Outcome.Alike, overridesTable_won won, overridesTable_won ((same.decided winner).mp won)]
    exact .same _
  · have won' := mt (same.decided winner).mpr won
    refine Decision.alike_iff.mpr ⟨fun e => ?_, fun e => ?_⟩
    · rw [overridesTable_lost_iff won, overridesTable_lost_iff won', same.leans, same.decided]
    · rw [overridesTable_leans_iff won, overridesTable_leans_iff won', same.leans]

theorem otherwiseTable_decision (winner : Effect) (os : List Outcome) :
    (otherwiseTable winner os).decision =
      if os.filter (Outcome.decides winner) ≠ [] then .ofEffect winner else .ofEffect winner.opposite := by
  unfold otherwiseTable
  cases os.filter (Outcome.decides winner) <;> simp

theorem otherwiseTable_alike (winner : Effect) (same : SameEffects os os') :
    (otherwiseTable winner os).Alike (otherwiseTable winner os') := by
  have chosen := same.decided winner
  rw [← decides_ne_nil, ← decides_ne_nil] at chosen
  rw [Outcome.Alike, otherwiseTable_decision, otherwiseTable_decision]
  simp only [chosen]
  exact .same _

theorem onlyOneTable_decided_iff {id : String} {e : Effect} :
    (onlyOneTable id os).decision = .ofEffect e ↔ ∃ o, applicable os = [o] ∧ o.decision = .ofEffect e := by
  refine ⟨onlyOneTable_decided, ?_⟩
  rintro ⟨o, chosen, decided⟩
  rw [onlyOneTable, chosen]
  exact decided

theorem onlyOneTable_alike_of_single (id : String) (same : SameEffects os os')
    (single : ∀ e, (∃ o, applicable os = [o] ∧ o.decision = .ofEffect e) ↔
      ∃ o, applicable os' = [o] ∧ o.decision = .ofEffect e) :
    (onlyOneTable id os).Alike (onlyOneTable id os') := by
  refine Decision.alike_iff.mpr ⟨fun e => ?_, fun e => ?_⟩
  · rw [onlyOneTable_decided_iff, onlyOneTable_decided_iff, single]
  · rw [onlyOneTable_leans, onlyOneTable_leans, same.leans]

theorem onlyOneTable_perm (id : String) (perm : os.Perm os') :
    (onlyOneTable id os).Alike (onlyOneTable id os') := by
  have applicable : (applicable os).Perm (applicable os') := perm.filter _
  refine onlyOneTable_alike_of_single id (.of_perm perm) fun e => ?_
  simp only [← List.perm_singleton, applicable.congr_left]

theorem applicable_alike (each : List.Forall₂ Outcome.Alike os os') :
    List.Forall₂ Outcome.Alike (applicable os) (applicable os') := by
  induction each with
  | nil => exact .nil
  | cons head _ ih =>
    rw [applicable_cons, applicable_cons, head.isApplicable]
    split
    · exact .cons head ih
    · exact ih

theorem applicable_single_of_alike {e : Effect} (each : List.Forall₂ Outcome.Alike os os')
    (single : ∃ o, applicable os = [o] ∧ o.decision = .ofEffect e) :
    ∃ o, applicable os' = [o] ∧ o.decision = .ofEffect e := by
  obtain ⟨o, chosen, decided⟩ := single
  have each := applicable_alike each
  rw [chosen] at each
  obtain ⟨o', _, alike, none, chosen'⟩ := List.forall₂_cons_left_iff.mp each
  rw [List.forall₂_nil_left_iff.mp none] at chosen'
  exact ⟨o', chosen', ((Decision.alike_iff.mp alike).1 e).mp decided⟩

theorem onlyOneTable_alike (id : String) (each : List.Forall₂ Outcome.Alike os os') :
    (onlyOneTable id os).Alike (onlyOneTable id os') := by
  have back : List.Forall₂ Outcome.Alike os' os := (each.imp fun _ _ => Decision.Alike.symm).flip
  exact onlyOneTable_alike_of_single id (.of_alike each) fun _ =>
    ⟨applicable_single_of_alike each, applicable_single_of_alike back⟩

theorem firstTable_alike (each : List.Forall₂ Outcome.Alike os os') :
    (firstTable os).Alike (firstTable os') := by
  induction each with
  | nil => exact .same _
  | cons head _ ih =>
    rw [firstTable_cons, firstTable_cons, head.isApplicable]
    split
    · exact head
    · exact ih

theorem table_alike (a : Algorithm) (id : String) (each : List.Forall₂ Outcome.Alike os os') :
    (a.table id os).Alike (a.table id os') := by
  have same := SameEffects.of_alike each
  cases a with
  | denyOverrides => exact overridesTable_alike .deny same
  | permitOverrides => exact overridesTable_alike .permit same
  | firstApplicable => exact firstTable_alike each
  | onlyOneApplicable => exact onlyOneTable_alike id each
  | denyUnlessPermit => exact otherwiseTable_alike .permit same
  | permitUnlessDeny => exact otherwiseTable_alike .deny same

theorem table_perm {a : Algorithm} (unordered : a ≠ .firstApplicable) (id : String) (perm : os.Perm os') :
    (a.table id os).Alike (a.table id os') := by
  have same := SameEffects.of_perm perm
  cases a with
  | denyOverrides => exact overridesTable_alike .deny same
  | permitOverrides => exact overridesTable_alike .permit same
  | firstApplicable => exact absurd rfl unordered
  | onlyOneApplicable => exact onlyOneTable_perm id perm
  | denyUnlessPermit => exact otherwiseTable_alike .permit same
  | permitUnlessDeny => exact otherwiseTable_alike .deny same

end Algorithm

end AccessControl
