import AccessControl.Proofs.Extent.Possible

namespace AccessControl

namespace Policy

mutual

def unguarded : Policy → Policy
  | rule r => rule { r with target := none, condition := none }
  | set h ps => set { h with target := none } (unguardedOf ps)

def unguardedOf : List Policy → List Policy
  | [] => []
  | p :: ps => p.unguarded :: unguardedOf ps

end

theorem unguardedOf_eq_map (ps : List Policy) : unguardedOf ps = ps.map unguarded := by
  induction ps with
  | nil => rfl
  | cons p ps ih => rw [unguardedOf, ih, List.map_cons]

/-- The tree with a target that never holds. -/
def silenced : Policy → Policy
  | rule r => rule { r with target := some (.literal (.ofBool false)) }
  | set h ps => set { h with target := some (.literal (.ofBool false)) } ps

theorem silenced_unguarded (p : Policy) : p.silenced.unguarded = p.unguarded := by cases p <;> rfl

theorem silenced_eager (val : Valuation) (p : Policy) : p.silenced.eager val = .notApplicable := by
  cases p <;> rfl

theorem unguarded_canHave (p : Policy) (e : Effect) : p.unguarded.CanHave e ↔ p.CanHave e := by
  induction p with
  | rule r => exact .rfl
  | set h ps each =>
    rw [unguarded, unguardedOf_eq_map, set_canHave, set_canHave]
    simp only [List.mem_map, exists_exists_and_eq_and]
    refine or_congr_left (exists_congr fun p => and_congr_right fun member => ?_)
    exact each p member

end Policy

namespace Algorithm

theorem table_alone (a : Algorithm) (id : String) {o : Outcome} {e : Effect}
    (decided : o.decision = .ofEffect e) : (a.table id [o]).decision = .ofEffect e := by
  obtain ⟨d, os⟩ := o
  subst decided
  cases a <;> cases e <;> rfl

theorem table_default {a : Algorithm} {e : Effect} (default : a.default? = some e) (id : String) :
    (a.table id []).decision = .ofEffect e := by
  cases a <;> cases default <;> rfl

end Algorithm

namespace Policy

variable {h : SetHeader} {ps before after : List Policy} {p : Policy} {e : Effect} {val : Valuation}

theorem applicable_silenced (val : Valuation) (ps : List Policy) :
    Algorithm.applicable (eagerAll val (ps.map silenced)) = [] := by
  induction ps with
  | nil => rfl
  | cons p ps ih =>
    rw [List.map_cons, eagerAll, Algorithm.applicable_cons, silenced_eager]
    exact ih

theorem eager_untargeted (val : Valuation) (h : SetHeader) (ps : List Policy) :
    ((set { h with target := none } ps).eager val).decision =
      (h.algorithm.table h.id (Algorithm.applicable (eagerAll val ps))).decision := by
  rw [Algorithm.table_applicable]
  rfl

theorem eager_alone (decided : (p.eager val).decision = .ofEffect e) :
    ((set { h with target := none } (before.map silenced ++ p :: after.map silenced)).eager val).decision =
      .ofEffect e := by
  have chosen : Algorithm.applicable (eagerAll val (before.map silenced ++ p :: after.map silenced)) =
      [p.eager val] := by
    have silent (ps : List Policy) : Algorithm.applicable ((ps.map silenced).map (eager val)) = [] := by
      rw [← eagerAll_eq_map, applicable_silenced]
    rw [eagerAll_eq_map, List.map_append, List.map_cons, Algorithm.applicable_append,
      Algorithm.applicable_cons, silent, silent, decided, Decision.ofEffect_isApplicable]
    rfl
  rw [eager_untargeted, chosen, Algorithm.table_alone h.algorithm h.id decided]

theorem eager_default (default : h.algorithm.default? = some e) :
    ((set { h with target := none } (ps.map silenced)).eager val).decision = .ofEffect e := by
  rw [eager_untargeted, applicable_silenced, Algorithm.table_default default]

theorem map_silenced_unguarded (ps : List Policy) :
    (ps.map silenced).map unguarded = ps.map unguarded := by
  rw [List.map_map]
  exact List.map_congr_left fun p _ => p.silenced_unguarded

theorem CanHave.attained (possible : p.CanHave e) :
    ∃ q : Policy, q.unguarded = p.unguarded ∧ ∀ val, (q.eager val).decision = .ofEffect e := by
  induction p with
  | rule r =>
    refine ⟨(rule r).unguarded, rfl, fun val => ?_⟩
    rw [rule_canHave.mp possible]
    rfl
  | set h ps each =>
    rcases set_canHave.mp possible with ⟨p, member, below⟩ | default
    · obtain ⟨q, same, decides⟩ := each p member below
      obtain ⟨before, after, rfl⟩ := List.append_of_mem member
      refine ⟨set { h with target := none } (before.map silenced ++ q :: after.map silenced), ?_, ?_⟩
      · simp only [unguarded, unguardedOf_eq_map, List.map_append, List.map_cons, map_silenced_unguarded,
          same]
      · exact fun val => eager_alone (decides val)
    · refine ⟨set { h with target := none } (ps.map silenced), ?_, fun val => eager_default default⟩
      simp only [unguarded, unguardedOf_eq_map, map_silenced_unguarded]

end Policy

/-- A tree can have an effect by its structure exactly where some tree that differs from it in targets
and conditions alone decides the effect, for every request and resolver and from any cache. -/
theorem Policy.canHave_iff_attained (p : Policy) (e : Effect) :
    (∃ x, p.possibleEffects = some x ∧ x.Covers e) ↔
      ∃ q : Policy, q.unguarded = p.unguarded ∧
        ∀ (ctx : Context) (c : Cache), (q.evaluate ctx c).1.decision = .ofEffect e := by
  constructor
  · intro possible
    obtain ⟨q, same, decides⟩ := CanHave.attained possible
    refine ⟨q, same, fun ctx c => ?_⟩
    obtain ⟨val, outcome⟩ := q.exists_eager ctx c
    rw [outcome, decides val]
  · rintro ⟨q, same, decides⟩
    -- One run of the other tree is enough, since the structure bounds what any run decides.
    let ctx : Context := ⟨.new "" "" "" .start2025, .empty⟩
    obtain ⟨val, outcome⟩ := q.exists_eager ctx .empty
    have decided := decides ctx .empty
    rw [outcome] at decided
    have possible : q.CanHave e := eager_leans (by rw [decided, Decision.ofEffect_leans])
    rw [← unguarded_canHave, same, unguarded_canHave] at possible
    exact possible

end AccessControl
