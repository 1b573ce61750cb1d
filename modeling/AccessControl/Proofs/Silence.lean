import AccessControl.Proofs.Eager.Policy

namespace AccessControl

/-- The second list is the first with further members in any places, all of them with the property. -/
inductive Interspersed {α : Type} (P : α → Prop) : List α → List α → Prop where
  | nil : Interspersed P [] []
  | keep (x : α) {xs ys : List α} (rest : Interspersed P xs ys) : Interspersed P (x :: xs) (x :: ys)
  | insert (x : α) {xs ys : List α} (fits : P x) (rest : Interspersed P xs ys) : Interspersed P xs (x :: ys)

theorem Interspersed.mono {α : Type} {P Q : α → Prop} {xs ys : List α} (imp : ∀ x, P x → Q x)
    (inserted : Interspersed P xs ys) : Interspersed Q xs ys := by
  induction inserted with
  | nil => exact .nil
  | keep x _ ih => exact .keep x ih
  | insert x fits _ ih => exact .insert x (imp x fits) ih

namespace Policy

def Silent (ctx : Context) (p : Policy) : Prop := (p.evaluate ctx .empty).1.decision = .notApplicable

def Targeted (ctx : Context) (h : SetHeader) : Prop := (holdsIfPresent ctx h.target .empty).1 = .ok true

variable {val : Valuation} {ps qs : List Policy}

theorem applicable_interspersed
    (inserted : Interspersed (fun p => (p.eager val).decision = .notApplicable) ps qs) :
    Algorithm.applicable (eagerAll val qs) = Algorithm.applicable (eagerAll val ps) := by
  induction inserted with
  | nil => rfl
  | keep p _ ih => rw [eagerAll, eagerAll, Algorithm.applicable_cons, Algorithm.applicable_cons, ih]
  | insert p silent _ ih =>
    rw [eagerAll, Algorithm.applicable_cons, silent]
    exact ih

theorem eager_interspersed {h : SetHeader} (target : Expression.eagerIfPresent val h.target = .ok true)
    (inserted : Interspersed (fun p => (p.eager val).decision = .notApplicable) ps qs) :
    (set h qs).eager val = (set h ps).eager val := by
  rw [eager, eager, target, targeted, targeted, ← Algorithm.table_applicable,
    applicable_interspersed inserted, Algorithm.table_applicable]

variable {r : Request} {f : AttributeId → Except ResolverError (Option AttributeValue)}

theorem Targeted.eager {h : SetHeader} (target : Targeted ⟨r, .ofFunction f⟩ h) :
    Expression.eagerIfPresent (r.read (.ofFunction f)) h.target = .ok true := by
  have reads := @holdsIfPresent_reads (.ofFunction f) ⟨r, .ofFunction f⟩ h.target
  rw [← reads.result .empty ((Cache.Agrees.empty _).trace_ofFunction (reads.trace .empty))]
  exact target

theorem Silent.eager {p : Policy} (silent : p.Silent ⟨r, .ofFunction f⟩) :
    (p.eager (r.read (.ofFunction f))).decision = .notApplicable := by
  rw [← p.evaluate_ofFunction r f]
  exact silent

end Policy

/-- With a resolver that is a function of the attribute, a set whose target holds has the same outcome and
gives the same response with any trees that are not applicable put among its children. -/
theorem Policy.respond_interspersed (r : Request)
    (f : AttributeId → Except ResolverError (Option AttributeValue)) (h : SetHeader) {ps qs : List Policy}
    (target : Targeted ⟨r, .ofFunction f⟩ h) (inserted : Interspersed (Silent ⟨r, .ofFunction f⟩) ps qs) :
    (∀ c d : Cache, Cache.Agrees (.ofFunction f) c → Cache.Agrees (.ofFunction f) d →
      ((set h qs).evaluate ⟨r, .ofFunction f⟩ c).1 = ((set h ps).evaluate ⟨r, .ofFunction f⟩ d).1) ∧
    ((set h qs).respond ⟨r, .ofFunction f⟩).1 = ((set h ps).respond ⟨r, .ofFunction f⟩).1 := by
  have same := eager_interspersed target.eager (inserted.mono fun _ silent => silent.eager)
  constructor
  · intro c d agrees agrees'
    rw [evaluate_of_agrees r _ agrees, evaluate_of_agrees r _ agrees', same]
  · rw [respond_ofFunction, respond_ofFunction, eagerRespond, eagerRespond, same]

theorem Policy.respond_interspersed_region :
    let owner : AttributeId := ⟨.subject, "owner", .boolean, .single⟩
    let region : AttributeId := ⟨.subject, "region", .boolean, .single⟩
    let reader : Policy := .rule ⟨"reader", some (.ref owner), none, .permit, [⟨"log", .permit, []⟩]⟩
    let regional : Policy := .rule ⟨"regional", none, some (.ref region), .deny, []⟩
    let abroad : Policy := .set ⟨"abroad", some (.ref region), .denyUnlessPermit, []⟩ [reader]
    let nearby : Policy := .set ⟨"nearby", none, .denyOverrides, []⟩ [regional, abroad]
    let single : SetHeader := ⟨"single", some (.ref owner), .onlyOneApplicable, [⟨"notice", .permit, []⟩]⟩
    let request : Request := ⟨"alice", "view", "doc123", ⟨2024, 1, 1, 0, 0, 0, 0, by decide⟩, []⟩
    let f (a : AttributeId) : Except ResolverError (Option AttributeValue) :=
      .ok (some (.ofBool (a = owner)))
    let ctx : Context := ⟨request, .ofFunction f⟩
    Targeted ctx single ∧ Interspersed (Silent ctx) [reader] [nearby, reader, abroad] ∧
      ((set single [nearby, reader, abroad]).evaluate ctx .empty).1 =
        ((set single [reader]).evaluate ctx .empty).1 ∧
      ((set single [nearby, reader, abroad]).respond ctx).1 = ((set single [reader]).respond ctx).1 ∧
      ((set single [reader]).respond ctx).1 = ⟨.permit, [⟨"log", []⟩, ⟨"notice", []⟩]⟩ ∧
      ((set single [nearby, reader, abroad]).respond ctx).2.calls = [owner, region] ∧
      ((set single [reader]).respond ctx).2.calls = [owner] := by
  intro owner region reader regional abroad nearby single request f ctx
  have target : Targeted ctx single := rfl
  have inserted : Interspersed (Silent ctx) [reader] [nearby, reader, abroad] :=
    .insert nearby rfl (.keep reader (.insert abroad rfl .nil))
  obtain ⟨outcome, response⟩ := Policy.respond_interspersed request f single target inserted
  exact ⟨target, inserted, outcome _ _ (Cache.Agrees.empty _) (Cache.Agrees.empty _), response, rfl, rfl, rfl⟩

end AccessControl
