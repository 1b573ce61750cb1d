import AccessControl.Proofs.Obligations.Outline

namespace AccessControl

/-- One after the other the assignments have these values, each with the cache that the one before it
leaves. -/
inductive AssignmentRule.Evaluates (ctx : Context) :
    List AssignmentRule → Cache → List Assignment → Cache → Prop where
  | none (c : Cache) : Evaluates ctx [] c [] c
  | next {a : AssignmentRule} {as : List AssignmentRule} {v : AttributeValue} {vs : List Assignment}
      {c d e : Cache} : a.value.value ctx c = (.ok v, d) → Evaluates ctx as d vs e →
      Evaluates ctx (a :: as) c (⟨a.name, v⟩ :: vs) e

namespace Obligation

open AssignmentRule (Evaluates)

/-- One after the other the obligations are fulfilled, each with a value for every assignment. -/
inductive Fulfils (ctx : Context) : List Obligation → Cache → List FulfilledObligation → Cache → Prop where
  | none (c : Cache) : Fulfils ctx [] c [] c
  | next {o : Obligation} {os : List Obligation} {vs : List Assignment} {fs : List FulfilledObligation}
      {c d e : Cache} : Evaluates ctx o.assignments c vs d → Fulfils ctx os d fs e →
      Fulfils ctx (o :: os) c (⟨o.id, vs⟩ :: fs) e

/-- An assignment of an obligation, with all that stands in front of it. -/
structure Place where
  before : List Obligation
  id : String
  fulfillOn : Effect
  done : List AssignmentRule
  assignment : AssignmentRule

def Place.within (p : Place) (rest : List AssignmentRule) (after : List Obligation) : List Obligation :=
  p.before ++ ⟨p.id, p.fulfillOn, p.done ++ p.assignment :: rest⟩ :: after

variable (ctx : Context)

/-- All that stands in front of the place has values, and the assignment there has none for this
reason. -/
def Place.Fails (p : Place) (c : Cache) (r : Reason) (d : Cache) : Prop :=
  ∃ fs vs c₁ c₂, Fulfils ctx p.before c fs c₁ ∧ Evaluates ctx p.done c₁ vs c₂ ∧
    p.assignment.value.value ctx c₂ = (.error r, d)

theorem assign_append {as : List AssignmentRule} {c d : Cache} {vs : List Assignment}
    (run : Evaluates ctx as c vs d) (rest : List AssignmentRule) :
    assign ctx (as ++ rest) c = Cache.bind (assign ctx rest) (fun ws e => (.ok (vs ++ ws), e)) d := by
  induction run with
  | none c => rcases more : assign ctx rest c with ⟨_ | ws, e⟩ <;> simp [Cache.bind, more]
  | @next a as v vs c d e first _ ih =>
    rw [List.cons_append, assign_cons]
    rcases more : assign ctx rest e with ⟨_ | ws, e'⟩ <;> simp [Cache.bind, first, ih, more]

theorem fulfill_append {os : List Obligation} {c d : Cache} {fs : List FulfilledObligation}
    (run : Fulfils ctx os c fs d) (after : List Obligation) :
    fulfill ctx (os ++ after) c = Cache.bind (fulfill ctx after) (fun gs e => (.ok (fs ++ gs), e)) d := by
  induction run with
  | none c => rcases more : fulfill ctx after c with ⟨_ | gs, e⟩ <;> simp [Cache.bind, more]
  | @next o os vs fs c d e first _ ih =>
    have values : assign ctx o.assignments c = (.ok vs, d) := by
      simpa [Cache.bind, assign] using assign_append ctx first []
    rw [List.cons_append, fulfill_cons]
    rcases more : fulfill ctx after e with ⟨_ | gs, e'⟩ <;> simp [Cache.bind, blame, values, ih, more]

theorem fulfill_fulfils {os : List Obligation} {c d : Cache} {fs : List FulfilledObligation}
    (run : Fulfils ctx os c fs d) : fulfill ctx os c = (.ok fs, d) := by
  simpa [Cache.bind, fulfill] using fulfill_append ctx run []

variable {ctx}

theorem Place.Fails.fulfill {p : Place} {c d : Cache} {r : Reason} (fails : p.Fails ctx c r d)
    (rest : List AssignmentRule) (after : List Obligation) :
    fulfill ctx (p.within rest after) c = (.error (.obligationFailed p.id r), d) := by
  obtain ⟨fs, vs, c₁, c₂, before, done, failed⟩ := fails
  have assigned : assign ctx (p.done ++ p.assignment :: rest) c₁ = (.error r, d) := by
    rw [assign_append ctx done, assign_cons]
    simp only [Cache.bind, failed]
  rw [within, fulfill_append ctx before, fulfill_cons]
  simp only [Cache.bind, assigned, blame]

variable (ctx)

theorem evaluates_cases (as : List AssignmentRule) (c : Cache) :
    (∃ vs d, Evaluates ctx as c vs d) ∨
    ∃ done a rest vs d r e, as = done ++ a :: rest ∧ Evaluates ctx done c vs d ∧
      a.value.value ctx d = (.error r, e) := by
  induction as generalizing c with
  | nil => exact .inl ⟨[], c, .none c⟩
  | cons a as ih =>
    rcases first : a.value.value ctx c with ⟨r | v, d⟩
    · exact .inr ⟨[], a, as, [], c, r, d, rfl, .none c, first⟩
    · rcases ih d with ⟨vs, e, run⟩ | ⟨done, b, rest, vs, e, r, e', rfl, run, failed⟩
      · exact .inl ⟨_, e, .next first run⟩
      · exact .inr ⟨a :: done, b, rest, _, e, r, e', rfl, .next first run, failed⟩

theorem fulfils_cases (os : List Obligation) (c : Cache) :
    (∃ fs d, Fulfils ctx os c fs d) ∨
    ∃ (p : Place) (rest : List AssignmentRule) (after : List Obligation) (r : Reason) (d : Cache),
      os = p.within rest after ∧ p.Fails ctx c r d := by
  induction os generalizing c with
  | nil => exact .inl ⟨[], c, .none c⟩
  | cons o os ih =>
    rcases evaluates_cases ctx o.assignments c with ⟨vs, d, values⟩ |
      ⟨done, a, rest, vs, d, r, e, split, values, failed⟩
    · rcases ih d with ⟨fs, e, run⟩ | ⟨p, rest, after, r, e, rfl, fs, vs', c₁, c₂, before, later⟩
      · exact .inl ⟨_, e, .next values run⟩
      · exact .inr ⟨{ p with before := o :: p.before }, rest, after, r, e, rfl, _, vs', c₁, c₂,
          .next values before, later⟩
    · exact .inr ⟨⟨[], o.id, o.fulfillOn, done, a⟩, rest, os, r, e, by rw [Place.within, ← split]; rfl,
        [], vs, c, d, .none c, values, failed⟩

end Obligation

open Obligation (Fulfils Place)

namespace Outcome

variable {ctx : Context} {o : Outcome} {e : Effect} {c d : Cache}

theorem eq_of_fields {o o' : Outcome} (decision : o.decision = o'.decision)
    (obligations : o.obligations = o'.obligations) : o = o' := by
  obtain ⟨d, os⟩ := o
  obtain ⟨d', os'⟩ := o'
  exact congrArg₂ Outcome.mk decision obligations

theorem respond_of_fulfils (decided : o.decision = .ofEffect e) {fs : List FulfilledObligation}
    (run : Fulfils ctx o.obligations c fs d) : o.respond ctx c = (⟨.ofEffect e, fs⟩, d) := by
  have effect : o.decision.effect? = some e := by rw [decided, Decision.ofEffect_effect?]
  rw [respond_effect ctx effect, Obligation.fulfill_fulfils ctx run, answer, decided]

theorem respond_of_fails (decided : o.decision = .ofEffect e) {p : Place} {rest : List AssignmentRule}
    {after : List Obligation} (split : o.obligations = p.within rest after) {r : Reason}
    (fails : p.Fails ctx c r d) :
    o.respond ctx c = (.bare (.indeterminate (.ofEffect e) (.obligationFailed p.id r)), d) := by
  have effect : o.decision.effect? = some e := by rw [decided, Decision.ofEffect_effect?]
  rw [respond_effect ctx effect, split, fails.fulfill rest after, answer]

end Outcome

namespace Policy

theorem respond_of_outline {p q : Policy} (same : q.outline = p.outline) (ctx : Context) :
    (q.evaluate ctx .empty).1.decision = (p.evaluate ctx .empty).1.decision ∧
      q.respond ctx = (q.evaluate ctx .empty).1.respond ctx (p.evaluate ctx .empty).2 := by
  obtain ⟨outcomes, caches⟩ := evaluate_of_outline same ctx .empty
  refine ⟨(Outcome.mk.inj outcomes).1, ?_⟩
  rw [← caches]
  rfl

/-- Without an effect the response is the decision alone, and no assignment is looked at. With an effect
either all obligations of the root are fulfilled and go out in order, each with its id and a value for
every name, or there are none and the reason is that of the first assignment that fails, which is the
last one looked at. The obligations that the root does not have, and what stands behind a failed
assignment, may be given any other assignments: response, cost and calls stay the same. -/
theorem respond_fulfilment (ctx : Context) (p : Policy) :
    let o := (p.evaluate ctx .empty).1
    let c := (p.evaluate ctx .empty).2
    (o.decision.effect? = none → p.respond ctx = (.bare o.decision, c) ∧
      ∀ q : Policy, q.outline = p.outline → q.respond ctx = p.respond ctx) ∧
    ∀ e, o.decision = .ofEffect e →
      ((∃ fs d, Fulfils ctx o.obligations c fs d ∧ p.respond ctx = (⟨.ofEffect e, fs⟩, d)) ∨
        ∃ (place : Place) (rest : List AssignmentRule) (after : List Obligation) (r : Reason) (d : Cache),
          o.obligations = place.within rest after ∧ place.Fails ctx c r d ∧
          p.respond ctx = (.bare (.indeterminate (.ofEffect e) (.obligationFailed place.id r)), d)) ∧
      ∀ q : Policy, q.outline = p.outline →
        ((q.evaluate ctx .empty).1.obligations = o.obligations → q.respond ctx = p.respond ctx) ∧
        ∀ (place : Place) (rest rest' : List AssignmentRule) (after after' : List Obligation) (r : Reason)
          (d : Cache), place.Fails ctx c r d → o.obligations = place.within rest after →
          (q.evaluate ctx .empty).1.obligations = place.within rest' after' →
          q.respond ctx = p.respond ctx := by
  intro o c
  constructor
  · intro undecided
    have bare : p.respond ctx = (.bare o.decision, c) := Outcome.respond_bare ctx undecided c
    refine ⟨bare, fun q same => ?_⟩
    obtain ⟨decision, response⟩ := respond_of_outline same ctx
    have undecided' : (q.evaluate ctx .empty).1.decision.effect? = none := by rw [decision]; exact undecided
    rw [response, Outcome.respond_bare ctx undecided' c, decision, bare]
  · intro e decided
    refine ⟨?_, fun q same => ?_⟩
    · rcases Obligation.fulfils_cases ctx o.obligations c with ⟨fs, d, run⟩ |
        ⟨place, rest, after, r, d, split, fails⟩
      · exact .inl ⟨fs, d, run, Outcome.respond_of_fulfils decided run⟩
      · exact .inr ⟨place, rest, after, r, d, split, fails, Outcome.respond_of_fails decided split fails⟩
    · obtain ⟨decision, response⟩ := respond_of_outline same ctx
      constructor
      · intro obligations
        rw [response, Outcome.eq_of_fields decision obligations]
        rfl
      · intro place rest rest' after after' r d fails split split'
        rw [response, Outcome.respond_of_fails (decision.trans decided) split' fails]
        exact (Outcome.respond_of_fails decided split fails).symm

theorem respond_fulfilment_notice :
    let mail : AttributeId := ⟨.subject, "mail", .string, .single⟩
    let phone : AttributeId := ⟨.subject, "phone", .string, .single⟩
    let log : Obligation := ⟨"log", .permit, [⟨"who", .ref .subjectId⟩]⟩
    let place : Place := ⟨[log], "notify", .permit, [⟨"what", .ref .resourceId⟩], ⟨"mail", .ref mail⟩⟩
    let notify (e : Expression) : Obligation :=
      ⟨"notify", .permit, place.done ++ place.assignment :: [⟨"also", e⟩]⟩
    let alarm (e : Expression) : Obligation := ⟨"alarm", .deny, [⟨"call", e⟩]⟩
    let p (e : Expression) : Policy := .rule ⟨"readers", none, none, .permit, [log, alarm e, notify e]⟩
    let ctx : Context := ⟨.new "ann" "read" "doc1" ⟨2025, 1, 8, 10, 0, 0, 0, by decide⟩, .empty⟩
    let constant : Expression := .literal (.ofBool true)
    (p (.ref phone)).outline = (p constant).outline ∧
      (p (.ref phone)).respond ctx = (p constant).respond ctx ∧
      ((p constant).respond ctx).1 =
        .bare (.indeterminate .permit (.obligationFailed "notify" (.missingAttribute "subject.mail"))) ∧
      ((p constant).respond ctx).2.calls = [mail] := by
  intro mail phone log place notify alarm p ctx constant
  have fails : place.Fails ctx ((p constant).evaluate ctx .empty).2 (.missingAttribute "subject.mail")
      ((p constant).respond ctx).2 :=
    ⟨_, _, _, _, .next (.next rfl (.none _)) (.none _), .next rfl (.none _), rfl⟩
  have unlooked := ((respond_fulfilment ctx (p constant)).2 .permit rfl).2 (p (.ref phone)) rfl
  exact ⟨rfl, unlooked.2 place [⟨"also", constant⟩] [⟨"also", .ref phone⟩] [] [] _ _ fails rfl rfl, rfl, rfl⟩

end Policy

end AccessControl
