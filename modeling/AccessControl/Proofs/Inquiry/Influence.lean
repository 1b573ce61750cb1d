import AccessControl.Proofs.Calls.Discipline
import AccessControl.Proofs.Identity.Congruence
import AccessControl.Proofs.Inquiry.Evaluate
import AccessControl.Proofs.Inquiry.Record

namespace AccessControl

variable {ctx ctx' : Context}

namespace Inquiry

variable {α : Type} {q : Inquiry α} {c : Cache}

theorem run_congr (same : ∀ a ∈ q.lookups ctx c, ctx.SameAt ctx' a) :
    q.lookups ctx' c = q.lookups ctx c ∧ q.run ctx' c = q.run ctx c := by
  induction q generalizing c with
  | done a => exact ⟨rfl, rfl⟩
  | look a next each =>
    obtain ⟨first, later⟩ := List.forall_mem_cons.mp same
    have step : c.lookup ctx' a = c.lookup ctx a := (first c).symm
    have rest := each (c.lookup ctx a).1 later
    rw [lookups, run, lookups, run, step]
    exact ⟨congrArg (a :: ·) rest.1, rest.2⟩
  | visit next ih => exact ih same

theorem mem_calls (logged : Cache.Logged ctx c) (b : AttributeId) :
    b ∈ (q.run ctx c).2.calls ↔ b ∈ c.calls ∨ (b ∈ q.lookups ctx c ∧ ctx.request.get? b = none) := by
  rw [q.calls_eq_of_logged logged, List.mem_append, List.mem_eraseDups, Request.unbound]
  by_cases earlier : b ∈ c.calls
  · simp [earlier]
  · simp [earlier]

end Inquiry

theorem Context.sameAt_ofFunction {r r' : Request}
    {f f' : AttributeId → Except ResolverError (Option AttributeValue)} {a : AttributeId}
    (bound : r'.get? a = r.get? a) (answered : r.get? a = none → f' a = f a) :
    SameAt ⟨r, .ofFunction f⟩ ⟨r', .ofFunction f'⟩ a := by
  intro c
  unfold Cache.lookup
  cases free : r.get? a with
  | some v => simp only [bound, free]
  | none => simp only [bound, free, Resolver.ofFunction, answered free]

def DecisionPoint.lookups (p : DecisionPoint) (r : Request) : List AttributeId :=
  p.policy.respondInquiry.lookups ⟨r, p.resolver⟩ .empty

/-- Every response is the result of an inquiry, whose look-ups of unbound attributes are what the resolver
is called for. A second run in which each attribute looked up in the first has the same binding, or none
and the same answer, makes the same look-ups and calls, at the same cost, and responds the same. -/
theorem DecisionPoint.respond_determined (p : DecisionPoint) :
    (∀ r : Request, p.policy.respondInquiry.run ⟨r, p.resolver⟩ .empty = p.respond r ∧
      ∀ a, a ∈ (p.respond r).2.calls ↔ a ∈ p.lookups r ∧ r.get? a = none) ∧
    ∀ (f f' : AttributeId → Except ResolverError (Option AttributeValue)) (r r' : Request),
      let first := p.withResolver (.ofFunction f)
      let second := p.withResolver (.ofFunction f')
      (∀ a ∈ first.lookups r, r'.get? a = r.get? a ∧ (r.get? a = none → f' a = f a)) →
        second.lookups r' = first.lookups r ∧ second.respond r' = first.respond r := by
  have runs (p : DecisionPoint) (r : Request) :
      p.policy.respondInquiry.run ⟨r, p.resolver⟩ .empty = p.respond r :=
    p.policy.run_respondInquiry ⟨r, p.resolver⟩
  constructor
  · intro r
    refine ⟨runs p r, fun a => ?_⟩
    rw [← runs p r, Inquiry.mem_calls (Cache.Logged.empty _), lookups]
    simp [Cache.empty]
  · intro f f' r r' first second agree
    have same : ∀ a ∈ first.lookups r, Context.SameAt ⟨r, .ofFunction f⟩ ⟨r', .ofFunction f'⟩ a := by
      intro a looked
      obtain ⟨bound, answered⟩ := agree a looked
      exact Context.sameAt_ofFunction bound answered
    have repeated := Inquiry.run_congr same
    rw [← runs first r, ← runs second r']
    exact repeated

theorem DecisionPoint.respond_determined_owner :
    let isPublic : AttributeId := ⟨.resource, "public", .boolean, .single⟩
    let owner : AttributeId := ⟨.resource, "owner", .string, .single⟩
    let owned : Expression := .compare .eq (.ref owner) (.ref .subjectId)
    let catalog : Catalog := ⟨[.subjectId, .resourceId, owner, isPublic, .actionId, .currentDateTime]⟩
    let p : DecisionPoint :=
      ⟨.rule ⟨"readers", none, some (.or [owned, .ref isPublic]), .permit, []⟩, catalog, .empty, .default,
        rfl⟩
    let ann : AttributeValue := .simple (.string "ann")
    let f : AttributeId → Except ResolverError (Option AttributeValue) := fun a =>
      if a = owner then .ok (some ann) else .ok none
    let f' : AttributeId → Except ResolverError (Option AttributeValue) := fun a =>
      if a = owner then .ok (some ann) else .error (.unavailable "store")
    let r := Request.new "ann" "read" "doc1" ⟨2025, 1, 8, 10, 0, 0, 0, by decide⟩
    let later := Request.new "ann" "write" "doc2" ⟨2026, 1, 8, 10, 0, 0, 0, by decide⟩
    let r' := later.bind isPublic (.bag (.ofList []))
    let first := p.withResolver (.ofFunction f)
    let second := p.withResolver (.ofFunction f')
    first.lookups r = [owner, .subjectId] ∧ (∀ a ∈ [owner, .subjectId], r'.get? a = r.get? a) ∧
      f' owner = f owner ∧ second.respond r' = first.respond r ∧ (first.respond r).1 = .bare .permit ∧
        (first.respond r).2.calls = [owner] := by
  intro isPublic owner owned catalog p ann f f' r later r' first second
  have looked : first.lookups r = [owner, .subjectId] := rfl
  have bound : ∀ a ∈ [owner, .subjectId], r'.get? a = r.get? a := by
    intro a member
    rcases List.mem_cons.mp member with rfl | member
    · rfl
    · rw [List.mem_singleton.mp member]
      rfl
  have repeated := p.respond_determined.2 f f' r r' fun a member => by
    rw [looked] at member
    refine ⟨bound a member, fun free => ?_⟩
    rcases List.mem_cons.mp member with rfl | member
    · rfl
    · rw [List.mem_singleton.mp member] at free
      cases free
  exact ⟨looked, bound, rfl, repeated.2, rfl, rfl⟩

end AccessControl
