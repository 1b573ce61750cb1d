import AccessControl.Policy.Combine

namespace AccessControl

@[simp] theorem Effect.opposite_opposite (e : Effect) : e.opposite.opposite = e := by cases e <;> rfl

@[simp] theorem Effect.opposite_inj {e f : Effect} : e.opposite = f.opposite ↔ e = f := by
  cases e <;> cases f <;> decide

namespace Extent

def mirror : Extent → Extent
  | permit => deny
  | deny => permit
  | permitOrDeny => permitOrDeny

@[simp] theorem mirror_inj {x y : Extent} : x.mirror = y.mirror ↔ x = y := by
  cases x <;> cases y <;> decide

@[simp] theorem mirror_ofEffect (e : Effect) : (ofEffect e).mirror = ofEffect e.opposite := by
  cases e <;> rfl

@[simp] theorem mirror_permitOrDeny : permitOrDeny.mirror = permitOrDeny := rfl

theorem union_mirror (x y : Extent) : x.mirror.union y.mirror = (x.union y).mirror := by
  cases x <;> cases y <;> rfl

theorem unionAll_mirror (xs : List Extent) : unionAll (xs.map mirror) = (unionAll xs).map mirror := by
  cases xs with
  | nil => rfl
  | cons x xs =>
    have fold (x : Extent) : (xs.map mirror).foldl union x.mirror = (xs.foldl union x).mirror := by
      induction xs generalizing x with
      | nil => rfl
      | cons y ys ih => rw [List.map_cons, List.foldl_cons, union_mirror, ih, List.foldl_cons]
    rw [List.map_cons, unionAll, fold, unionAll, Option.map_some]

end Extent

namespace Decision

def mirror : Decision → Decision
  | permit => deny
  | deny => permit
  | notApplicable => notApplicable
  | indeterminate x r => indeterminate x.mirror r

@[simp] theorem mirror_ofEffect (e : Effect) : (ofEffect e).mirror = ofEffect e.opposite := by
  cases e <;> rfl

theorem effect?_mirror (d : Decision) : d.mirror.effect? = d.effect?.map Effect.opposite := by
  cases d <;> rfl

@[simp] theorem isApplicable_mirror (d : Decision) : d.mirror.isApplicable = d.isApplicable := by
  cases d <;> rfl

@[simp] theorem extent?_mirror (d : Decision) : d.mirror.extent? = d.extent?.map Extent.mirror := by
  cases d <;> rfl

end Decision

namespace Obligation

def mirror (o : Obligation) : Obligation where
  id := o.id
  fulfillOn := o.fulfillOn.opposite
  assignments := o.assignments

theorem forEffect_mirror (os : List Obligation) (e : Effect) :
    forEffect (os.map mirror) e.opposite = (forEffect os e).map mirror := by
  unfold forEffect
  rw [List.filter_map]
  congr 1
  apply List.filter_congr
  intro o _
  rw [Bool.eq_iff_iff]
  simp [mirror]

end Obligation

namespace Outcome

def mirror (o : Outcome) : Outcome where
  decision := o.decision.mirror
  obligations := o.obligations.map Obligation.mirror

@[simp] theorem mirror_effect (e : Effect) (os : List Obligation) :
    mirror ⟨.ofEffect e, os⟩ = ⟨.ofEffect e.opposite, os.map Obligation.mirror⟩ := by
  rw [mirror, Decision.mirror_ofEffect]

@[simp] theorem mirror_indeterminate (x : Extent) (r : Reason) :
    (indeterminate x r).mirror = indeterminate x.mirror r := rfl

@[simp] theorem mirror_notApplicable : notApplicable.mirror = notApplicable := rfl

theorem decides_mirror (e : Effect) : decides e.opposite ∘ mirror = decides e := by
  funext ⟨d, os⟩
  cases d <;> cases e <;> rfl

theorem leaning?_mirror (x : Extent) : leaning? x.mirror ∘ mirror = leaning? x := by
  funext ⟨d, os⟩
  cases d with
  | indeterminate y r => simp [leaning?, mirror, Decision.mirror]
  | _ => rfl

theorem obligationsFor_mirror (os : List Outcome) (e : Effect) :
    obligationsFor e.opposite (os.map mirror) = (obligationsFor e os).map Obligation.mirror := by
  rw [obligationsFor, List.filter_map, decides_mirror, List.flatMap_map, obligationsFor, List.map_flatMap]
  rfl

end Outcome

namespace Algorithm

def mirror : Algorithm → Algorithm
  | denyOverrides => permitOverrides
  | permitOverrides => denyOverrides
  | firstApplicable => firstApplicable
  | onlyOneApplicable => onlyOneApplicable
  | denyUnlessPermit => permitUnlessDeny
  | permitUnlessDeny => denyUnlessPermit

theorem default?_mirror (a : Algorithm) : a.mirror.default? = a.default?.map Effect.opposite := by
  cases a <;> rfl

theorem settles_mirror (a : Algorithm) (d : Decision) : a.mirror.settles d.mirror = a.settles d := by
  cases a <;> cases d <;> rfl

open Outcome (decides leaning?)

theorem find?_mirror (os : List Outcome) (e : Effect) :
    (os.map Outcome.mirror).find? (decides e.opposite) = (os.find? (decides e)).map Outcome.mirror := by
  rw [List.find?_map, Outcome.decides_mirror]

theorem any_mirror (os : List Outcome) (e : Effect) :
    (os.map Outcome.mirror).any (decides e.opposite) = os.any (decides e) := by
  rw [List.any_map, Outcome.decides_mirror]

theorem findSome?_mirror (os : List Outcome) (x : Extent) :
    (os.map Outcome.mirror).findSome? (leaning? x.mirror) = os.findSome? (leaning? x) := by
  rw [List.findSome?_map, Outcome.leaning?_mirror]

theorem overrides_mirror (winner : Effect) (os : List Outcome) :
    overrides winner.opposite (os.map Outcome.mirror) = (overrides winner os).mirror := by
  have both := findSome?_mirror os .permitOrDeny
  have towards (e : Effect) := findSome?_mirror os (.ofEffect e)
  have lost := Outcome.obligationsFor_mirror os winner.opposite
  rw [Extent.mirror_permitOrDeny] at both
  simp only [Extent.mirror_ofEffect] at towards
  unfold overrides
  simp only [find?_mirror, any_mirror, towards, both, lost]
  cases os.find? (decides winner) with
  | some o => rfl
  | none =>
    cases os.findSome? (leaning? .permitOrDeny) with
    | some r => rfl
    | none =>
      cases os.findSome? (leaning? (.ofEffect winner)) <;>
        cases os.findSome? (leaning? (.ofEffect winner.opposite)) <;>
        cases os.any (decides winner.opposite) <;> simp

theorem isApplicable_comp_mirror :
    (fun o : Outcome => o.decision.isApplicable) ∘ Outcome.mirror = fun o => o.decision.isApplicable :=
  funext fun o => o.decision.isApplicable_mirror

theorem first_mirror (os : List Outcome) : first (os.map Outcome.mirror) = (first os).mirror := by
  rw [first, List.find?_map, isApplicable_comp_mirror, first]
  cases os.find? fun o => o.decision.isApplicable <;> rfl

theorem extents_mirror (os : List Outcome) :
    (os.map Outcome.mirror).filterMap (fun o => o.decision.extent?) =
      (os.filterMap fun o => o.decision.extent?).map Extent.mirror := by
  rw [List.filterMap_map, List.map_filterMap]
  exact congrArg (os.filterMap ·) (funext fun o => o.decision.extent?_mirror)

theorem onlyOne_mirror (id : String) (os : List Outcome) :
    onlyOne id (os.map Outcome.mirror) = (onlyOne id os).mirror := by
  have extents := extents_mirror (os.filter fun o => o.decision.isApplicable)
  unfold onlyOne
  rw [List.filter_map, isApplicable_comp_mirror]
  rcases found : os.filter fun o => o.decision.isApplicable with _ | ⟨o, _ | ⟨o', rest⟩⟩
  · simp only [found]
    rfl
  · simp only [found]
    rfl
  · rw [found] at extents
    simp only [found, List.map_cons] at extents ⊢
    rw [extents, Extent.unionAll_mirror]
    cases Extent.unionAll _ <;> rfl

theorem otherwise_mirror (winner : Effect) (os : List Outcome) :
    otherwise winner.opposite (os.map Outcome.mirror) = (otherwise winner os).mirror := by
  unfold otherwise
  rw [find?_mirror, Outcome.obligationsFor_mirror]
  cases os.find? (decides winner) <;> simp [Outcome.mirror]

theorem reduce_mirror (a : Algorithm) (id : String) (os : List Outcome) :
    a.mirror.reduce id (os.map Outcome.mirror) = (a.reduce id os).mirror := by
  cases a with
  | denyOverrides => exact overrides_mirror .deny os
  | permitOverrides => exact overrides_mirror .permit os
  | firstApplicable => exact first_mirror os
  | onlyOneApplicable => exact onlyOne_mirror id os
  | denyUnlessPermit => exact otherwise_mirror .permit os
  | permitUnlessDeny => exact otherwise_mirror .deny os

end Algorithm

end AccessControl
