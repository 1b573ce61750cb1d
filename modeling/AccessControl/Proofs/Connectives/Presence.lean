import AccessControl.Proofs.Connectives.Truth
import AccessControl.Proofs.Reasons.Expression
import AccessControl.Proofs.Stability.Expression

namespace AccessControl

def Reason.OfAbsence : Reason → Prop
  | missingAttribute _ => True
  | resolverFailure _ _ => True
  | _ => False

def Absent (x : Except Reason AttributeValue) : Prop := ∃ r, x = .error r ∧ r.OfAbsence

theorem Reason.OfValues.not_ofAbsence {r : Reason} (ofValues : r.OfValues) : ¬r.OfAbsence := by
  intro absence
  cases r with
  | missingAttribute => exact ofValues
  | resolverFailure => exact ofValues
  | _ => exact absence

namespace Expression

/-- Where the attribute has no value, the expression has this truth: it tests for the attribute, negates
such a test or settles by one. -/
inductive Guards (a : AttributeId) : Bool → Expression → Prop where
  | test : Guards a false (.call .isPresent [.ref a])
  | not {b : Bool} {e : Expression} : Guards a b e → Guards a (!b) (.not e)
  | and {e : Expression} {es : List Expression} : e ∈ es → Guards a false e → Guards a false (.and es)
  | or {e : Expression} {es : List Expression} : e ∈ es → Guards a true e → Guards a true (.or es)

theorem presence_absent {x : Except Reason AttributeValue} (absent : Absent x) : presence x = .ok false := by
  obtain ⟨r, rfl, absence⟩ := absent
  cases r with
  | missingAttribute => rfl
  | resolverFailure => rfl
  | _ => exact absence.elim

theorem connect_of_mem {settling : Bool} {ts : List (Except Reason Bool)} (member : .ok settling ∈ ts) :
    connect settling ts = .ok settling := by
  induction member with
  | head ts =>
    rw [connect_cons]
    exact if_pos rfl
  | tail t _ ih => exact connect_settled_cons ih t

variable {val : Valuation} {a : AttributeId} {settling : Bool} {es : List Expression}

theorem Guards.eagerTruth {b : Bool} {e : Expression} (guards : e.Guards a b) (absent : Absent (val a)) :
    e.eagerTruth val = .ok b := by
  induction guards with
  | test => simp only [Expression.eagerTruth, eager, if_true, truth_ofBool, presence_absent absent]
  | not _ ih =>
    rw [eagerTruth_not, ih]
    rfl
  | and member _ ih =>
    rw [eagerTruth_and]
    exact connect_of_mem (List.mem_map.mpr ⟨_, member, ih⟩)
  | or member _ ih =>
    rw [eagerTruth_or]
    exact connect_of_mem (List.mem_map.mpr ⟨_, member, ih⟩)

/-- Each attribute that the operands refer to has a guard among them. -/
def Guarded (settling : Bool) (es : List Expression) : Prop :=
  ∀ a ∈ attributesOf es, ∃ e ∈ es, e.Guards a settling

theorem Guarded.connect (guarded : Guarded settling es) (member : a ∈ attributesOf es)
    (absent : Absent (val a)) : connect settling (es.map (Expression.eagerTruth val)) = .ok settling := by
  obtain ⟨e, operand, guards⟩ := guarded a member
  exact connect_of_mem (List.mem_map.mpr ⟨e, operand, guards.eagerTruth absent⟩)

theorem Guarded.reason (guarded : Guarded settling es) {r : Reason}
    (failed : Expression.connect settling (es.map (Expression.eagerTruth val)) = .error r) :
    ¬r.OfAbsence := by
  intro absence
  obtain ⟨e, operand, truth⟩ := List.mem_map.mp (connect_error failed)
  rcases truth_raises eager_raises truth with operator | ⟨a, member, missing⟩
  · exact operator.ofValues.not_ofAbsence absence
  · have settled := guarded.connect (attributes_subset operand member) ⟨r, missing, absence⟩
    cases failed.symm.trans settled

/-- The outcome of a connective whose operands refer to these attributes: no failure is for want of a
value; an attribute without a value settles it; and unless it is settled it has looked up them all. -/
structure Withstands (ctx : Context) (as : List AttributeId) (settling : Bool)
    (x : Except Reason Bool × Cache) : Prop where
  reason : ∀ r, x.1 = .error r → ¬r.OfAbsence
  absent : ∀ a ∈ as, Absent (x.2.lookup ctx a).1 → x.1 = .ok settling
  sought : x.1 ≠ .ok settling → ∀ a ∈ as, ctx.request.get? a = none →
    ∃ answer, x.2.answers.lookup a = some answer

theorem connective_reads_truths {s : Snapshot} {ctx : Context} (settling : Bool) (es : List Expression) :
    Cache.Reads s ctx (attributesOf es) (connective ctx settling es)
      (connect settling (es.map (Expression.eagerTruth (ctx.request.read s)))) := by
  rw [← truths_eq_map]
  exact connective_reads settling es fun e _ => e.value_reads

theorem connective_withstands (guarded : Guarded settling es) (ctx : Context) (c : Cache) :
    Withstands ctx (attributesOf es) settling (connective ctx settling es c) := by
  have eager (s : Snapshot) (agrees : Cache.Agrees s (connective ctx settling es c).2) :
      (connective ctx settling es c).1 = connect settling (es.map (eagerTruth (ctx.request.read s))) :=
    (connective_reads_truths settling es).result c agrees
  constructor
  · intro r failed
    exact guarded.reason ((eager _ (Cache.agrees_snapshot _)).symm.trans failed)
  · intro a member absent
    rw [Cache.lookup_outlook] at absent
    exact (eager _ (Cache.agrees_outlook _ ctx)).trans (guarded.connect member absent)
  · intro unsettled a member free
    -- an attribute that no look-up of the run reached may as well be missing
    by_contra unknown
    have missing : (connective ctx settling es c).2.answers.lookup a = none :=
      Option.eq_none_iff_forall_ne_some.mpr fun answer known => unknown ⟨answer, known⟩
    apply unsettled
    refine (eager _ (Cache.agrees_snapshot _)).trans (guarded.connect member ?_)
    refine ⟨.missingAttribute a.text, ?_, trivial⟩
    simp only [Request.read, free, Cache.snapshot, missing, Option.getD_none, Answer.value]

/-- A conjunction whose operands test for every attribute that they refer to, in any positions and from
any cache, is never indeterminate for want of a value, and false wherever an attribute has none. A
disjunction of which they are negated tests is true there. -/
theorem guards_withstand (ctx : Context) (es : List Expression) (c : Cache) :
    (Guarded false es → Withstands ctx (attributesOf es) false ((and es).holds ctx c)) ∧
    (Guarded true es → Withstands ctx (attributesOf es) true ((or es).holds ctx c)) := by
  rw [holds_and, holds_or]
  exact ⟨fun guarded => connective_withstands guarded ctx c,
    fun guarded => connective_withstands guarded ctx c⟩

theorem guards_withstand_owner :
    let owner : AttributeId := ⟨.resource, "owner", .string, .single⟩
    let level : AttributeId := ⟨.subject, "level", .integer, .single⟩
    let present (a : AttributeId) : Expression := .call .isPresent [.ref a]
    let uses : Expression := .or [.compare .eq (.ref owner) (.literal (.simple (.string "ann"))), .ref level]
    let resolver : Resolver := fun _ calls _ =>
      if calls = [] then .error (.unavailable "store") else .ok (some (.simple (.integer 3)))
    let ctx : Context := ⟨.new "ann" "read" "doc1" ⟨2025, 1, 8, 10, 0, 0, 0, by decide⟩, resolver⟩
    let es : List Expression := [uses, present level, present owner]
    let es' : List Expression := [uses, .not (present level), .not (present owner)]
    Guarded false es ∧ Guarded true es' ∧
      (uses.holds ctx .empty).1 =
        .error (.resolverFailure "resource.owner" "attribute source unavailable: store") ∧
      ((and es).holds ctx .empty).1 = .ok false ∧ ((or es').holds ctx .empty).1 = .ok true := by
  intro owner level present uses resolver ctx es es'
  have guarded : Guarded false es := by
    intro a member
    have mentioned : a ∈ [owner, level, level, owner] := member
    have either : a = owner ∨ a = level := by grind
    rcases either with rfl | rfl
    · exact ⟨present owner, by simp [es], .test⟩
    · exact ⟨present level, by simp [es], .test⟩
  have guarded' : Guarded true es' := by
    intro a member
    have mentioned : a ∈ [owner, level, level, owner] := member
    have either : a = owner ∨ a = level := by grind
    rcases either with rfl | rfl
    · exact ⟨.not (present owner), by simp [es'], .not .test⟩
    · exact ⟨.not (present level), by simp [es'], .not .test⟩
  have conjunction := (guards_withstand ctx es .empty).1 guarded
  have disjunction := (guards_withstand ctx es' .empty).2 guarded'
  exact ⟨guarded, guarded', rfl, conjunction.absent owner (by decide) ⟨_, rfl, trivial⟩,
    disjunction.absent owner (by decide) ⟨_, rfl, trivial⟩⟩

end Expression

end AccessControl
