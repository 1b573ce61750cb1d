import AccessControl.Proofs.References.Declared
import AccessControl.Proofs.Requests.Build

namespace AccessControl

theorem Cache.calls_lookup {ctx : Context} {c : Cache} {a b : AttributeId}
    (called : b ∈ (c.lookup ctx a).2.calls) :
    b ∈ c.calls ∨ (b = a ∧ ctx.request.get? a = none) := by
  rcases c.lookup_cases ctx a with ⟨v, _, step⟩ | ⟨answer, _, _, step⟩ | ⟨answer, _, free, _, step⟩
  all_goals rw [step] at called
  · exact .inl called
  · exact .inl called
  · rcases List.mem_append.mp called with earlier | last
    · exact .inl earlier
    · exact .inr ⟨List.mem_singleton.mp last, free⟩

theorem Cache.Trace.calls_free {ctx : Context} {as : List AttributeId} {c d : Cache}
    (t : Trace ctx as c d) :
    ∀ a ∈ d.calls, a ∈ c.calls ∨ (a ∈ as ∧ ctx.request.get? a = none) := by
  refine t.invariant (P := fun d => ∀ a ∈ d.calls, a ∈ c.calls ∨ (a ∈ as ∧ ctx.request.get? a = none))
    (fun a called => .inl called) ?_ fun _ calls => calls
  intro _ a looked calls b called
  rcases calls_lookup called with earlier | ⟨rfl, free⟩
  · exact calls b earlier
  · exact .inr ⟨looked, free⟩

theorem Policy.respond_calls_nodup (ctx : Context) (p : Policy) : (p.respond ctx).2.calls.Nodup :=
  ((Cache.Logged.empty ctx).of_trace (p.respond_trace ctx)).nodup

theorem Policy.respond_calls_free (ctx : Context) {p : Policy} {a : AttributeId}
    (called : a ∈ (p.respond ctx).2.calls) : p.Mentions a ∧ ctx.request.get? a = none := by
  rcases (p.respond_trace ctx).calls_free a called with earlier | ⟨looked, free⟩
  · cases earlier
  · exact ⟨mentions_of_respond ctx looked, free⟩

/-- Whatever the resolver answers, and however the request was built: no attribute is asked for twice,
nor another of the same category and name, and each is declared as it is asked for, mentioned by the
policy, not bound by the request and not built in. -/
theorem DecisionPoint.respond_calls (p : DecisionPoint) (subject action resource : String) (start : Instant)
    (changes : List Request.Change) :
    let r := Request.build subject action resource start changes
    let calls := (p.respond r).2.calls
    calls.Pairwise (fun a b => ¬(a.category = b.category ∧ a.name = b.name)) ∧
      ∀ a ∈ calls, p.catalog.contains a = true ∧ p.policy.Mentions a ∧ r.get? a = none ∧
        a.isBuiltin = false := by
  intro r calls
  have free (a : AttributeId) (called : a ∈ calls) : p.policy.Mentions a ∧ r.get? a = none :=
    Policy.respond_calls_free ⟨r, p.resolver⟩ called
  have declared (a : AttributeId) (called : a ∈ calls) : p.catalog.contains a = true :=
    Policy.validate_mentions p.valid (free a called).1
  constructor
  · have nodup : calls.Nodup := p.policy.respond_calls_nodup ⟨r, p.resolver⟩
    refine nodup.imp_of_mem fun {a b} first second different same => different ?_
    exact Catalog.contains_unique (declared a first) (declared b second) same.1 same.2
  · intro a called
    have faithful := Request.build_faithful subject action resource start changes a.category
    have other : a.isBuiltin ≠ true := by
      intro builtin
      rw [← AttributeId.isBuiltin_iff.mp builtin] at faithful
      cases (free a called).2.symm.trans faithful
    exact ⟨declared a called, (free a called).1, (free a called).2, Bool.eq_false_iff.mpr other⟩

end AccessControl
