import AccessControl.Proofs.Identity.Catalog
import AccessControl.Proofs.Identity.Congruence

namespace AccessControl

/-- What a request says after changes: its own fields, the time set last, and the values bound last. -/
structure Request.Keeps (r : Request) (subject action resource : String) (start : Instant)
    (changes : List Request.Change) : Prop where
  subject : r.get? .subjectId = some (.simple (.string subject))
  action : r.get? .actionId = some (.simple (.string action))
  resource : r.get? .resourceId = some (.simple (.string resource))
  time : r.get? .currentDateTime = some (.simple (.dateTime r.timestamp))
  timestamp : r.timestamp = lastTime start changes
  bound : ∀ a, a.isBuiltin = false → r.get? a = lastBound changes a

theorem Request.build_keeps (subject action resource : String) (start : Instant) (changes : List Change) :
    (build subject action resource start changes).Keeps subject action resource start changes := by
  have own := build_faithful subject action resource start changes
  have field := build_field subject action resource start changes
  have named (c : Category) : (build subject action resource start changes).get? (.builtin c) =
      some ((new subject action resource (lastTime start changes)).field c) := by rw [own c, field]
  have times := congrFun field .environment
  simp only [Request.field, new, AttributeValue.simple.injEq, Value.dateTime.injEq] at times
  exact {
    subject := named .subject
    action := named .action
    resource := named .resource
    time := own .environment
    timestamp := times
    bound := fun a free => build_get?_free subject action resource start changes free }

theorem Request.build_field_eq {subject action resource : String} {start start' : Instant}
    {changes changes' : List Change}
    (time : (build subject action resource start' changes').timestamp =
      (build subject action resource start changes).timestamp) :
    (build subject action resource start' changes').field =
      (build subject action resource start changes).field := by
  have last : lastTime start' changes' = lastTime start changes := by
    rw [← (build_keeps subject action resource start' changes').timestamp, time]
    exact (build_keeps subject action resource start changes).timestamp
  rw [build_field, build_field, last]

theorem Request.field_conforms (r : Request) (k : Category) :
    (r.field k).conformsTo (.builtin k) = true := by
  cases k <;> rfl

theorem Request.Faithful.lookup {r : Request} (faithful : r.Faithful) (f : Resolver) (k : Category)
    (c : Cache) :
    c.lookup ⟨r, f⟩ (.builtin k) = (.ok (r.field k), c) := by
  simp only [Cache.lookup, faithful k, Answer.check, r.field_conforms k, if_true]

theorem Context.sameAt_unreserved {r r' : Request} {f f' : Resolver} {a : AttributeId}
    (bound : r'.get? a = r.get? a) (resolved : ∀ calls, f' r' calls a = f r calls a) :
    Context.SameAt ⟨r', f'⟩ ⟨r, f⟩ a := by
  intro c
  simp only [Cache.lookup, bound, resolved]

theorem Context.sameAt_builtin {r r' : Request} (first : r.Faithful) (second : r'.Faithful) (f f' : Resolver)
    {k : Category} (own : r'.field k = r.field k) : Context.SameAt ⟨r', f'⟩ ⟨r, f⟩ (.builtin k) := by
  intro c
  rw [first.lookup, second.lookup, own]

theorem DecisionPoint.eq_builtin_of_mentions (p : DecisionPoint) (built : p.catalog.Built) {a : AttributeId}
    (mentions : p.policy.Mentions a) (reserved : a.Reserved) : a = .builtin a.category :=
  built.eq_builtin (Policy.validate_mentions p.valid mentions) reserved

/-- Changes leave a request its own fields. Where a policy accepted with a catalog of declarations refers
to a reserved name, it reads the request's field, without any look-up elsewhere; and two requests with
the same fields, whose other bindings and resolvers agree but for reserved names, get the same response
at the same cost. -/
theorem DecisionPoint.respond_reserved (p : DecisionPoint) (built : p.catalog.Built)
    (subject action resource : String) (start : Instant) (changes : List Request.Change) :
    let r := Request.build subject action resource start changes
    r.Keeps subject action resource start changes ∧
    (∀ a, p.policy.Mentions a → a.Reserved → ∀ f c,
      (Expression.ref a).value ⟨r, f⟩ c = (.ok (r.field a.category), c)) ∧
    ∀ start' changes' f f',
      let r' := Request.build subject action resource start' changes'
      r'.timestamp = r.timestamp → (∀ a, ¬a.Reserved → r'.get? a = r.get? a) →
        (∀ calls a, ¬a.Reserved → f' r' calls a = f r calls a) →
          (p.withResolver f').respond r' = (p.withResolver f).respond r := by
  intro r
  have faithful := Request.build_faithful subject action resource start changes
  refine ⟨Request.build_keeps subject action resource start changes, ?_, ?_⟩
  · intro a mentions reserved f c
    rw [p.eq_builtin_of_mentions built mentions reserved, AttributeId.builtin_category]
    exact faithful.lookup f a.category c
  · intro start' changes' f f' r' time bound resolved
    have faithful' := Request.build_faithful subject action resource start' changes'
    have own : r'.field = r.field := Request.build_field_eq time
    refine Policy.respond_congr fun a mentions => ?_
    by_cases reserved : a.Reserved
    · rw [p.eq_builtin_of_mentions built mentions reserved]
      exact Context.sameAt_builtin faithful faithful' f f' (congrFun own a.category)
    · exact Context.sameAt_unreserved (bound a reserved) fun calls => resolved calls a reserved

theorem DecisionPoint.respond_reserved_alice :
    let mallory : AttributeValue := .simple (.string "mallory")
    let lookalike : AttributeId := ⟨.subject, "id", .string, .bag⟩
    let onlyAlice : Expression := .compare .eq (.ref .subjectId) (.literal (.simple (.string "alice")))
    let log : Obligation := ⟨"log", .permit, [⟨"who", .ref .subjectId⟩]⟩
    let p : DecisionPoint :=
      ⟨.rule ⟨"alice-only", none, some onlyAlice, .permit, [log]⟩, .initial, .empty, .default, rfl⟩
    let now : Instant := ⟨2025, 1, 8, 10, 0, 0, 0, by decide⟩
    let plain := Request.build "alice" "read" "doc1" now []
    let claimed := Request.build "alice" "read" "doc1" now
      [.binding .subjectId mallory, .binding lookalike (.bag (.ofList [.string "mallory"]))]
    let liar : Resolver := fun _ _ a => .ok (if a.Reserved then some mallory else none)
    p.catalog.Built ∧ claimed.get? .subjectId = some (.simple (.string "alice")) ∧
      (claimed.get? lookalike).isSome ∧
      ((p.withResolver liar).respond claimed).1 = ((p.withResolver .empty).respond plain).1 ∧
      ((p.withResolver .empty).respond plain).1 =
        ⟨.permit, [⟨"log", [⟨"who", .simple (.string "alice")⟩]⟩]⟩ := by
  intro mallory lookalike onlyAlice log p now plain claimed liar
  have built : p.catalog.Built := .initial
  obtain ⟨keeps, _, same⟩ := p.respond_reserved built "alice" "read" "doc1" now
    [.binding .subjectId mallory, .binding lookalike (.bag (.ofList [.string "mallory"]))]
  have bound (a : AttributeId) (free : ¬a.Reserved) : plain.get? a = claimed.get? a := by
    have other (b : AttributeId) (reserved : b.Reserved) : a ≠ b := fun equal => free (equal ▸ reserved)
    have unbuilt : a.isBuiltin = false := AttributeId.isBuiltin_of_unreserved free
    have unclaimed := keeps.bound a unbuilt
    have unsaid := (Request.build_keeps "alice" "read" "doc1" now []).bound a unbuilt
    rw [unclaimed, unsaid]
    simp [Request.lastBound, Request.Change.bound, Request.lookup_cons, other .subjectId rfl,
      other lookalike rfl]
  have resolved (calls : List AttributeId) (a : AttributeId) (free : ¬a.Reserved) :
      Resolver.empty plain calls a = liar claimed calls a := by simp [Resolver.empty, liar, free]
  have answer := same now [] liar .empty rfl bound resolved
  exact ⟨built, keeps.subject, rfl, by rw [answer], rfl⟩

end AccessControl
